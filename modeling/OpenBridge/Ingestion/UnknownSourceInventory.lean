import Mathlib.Algebra.BigOperators.Group.List.Basic
import Mathlib.Algebra.GroupWithZero.Nat
import OpenBridge.Foundation.Machine

/-!
# Ingestion: the inventory of unknown sources

`UnknownSourceInventory`: threads record parked messages under a key and a flush drains the counters.
A record takes its counter from the dictionary and counts under the counter's lock, in two steps; a
drain takes the keys, removes one counter after the other, and reads each under its lock.
-/

namespace OpenBridge.Ingestion

open OpenBridge.Foundation

/-- `Key`. -/
structure UnknownSourceKey where
  configId : String
  reason : String
  sourceKey : String
deriving DecidableEq

/-- Where a counter is: in `_pending`, removed by a drain that has not read it yet, or read. -/
inductive Place where
  | pending
  | removed (drain : ℕ)
  | read
deriving DecidableEq

/-- `Pending`: a counter, with its place. -/
structure Pending where
  key : UnknownSourceKey
  count : ℕ
  lastTopic : Option String
  lastPayload : Option String
  lastSeen : ℤ
  place : Place

structure UnknownSourceRow where
  key : UnknownSourceKey
  lastSeen : ℤ
  messageCount : ℕ
  lastTopic : Option String
  lastPayload : Option String

/-- A `Record` call that has its counter and has not counted yet. -/
structure Recording where
  entry : ℕ
  topic : String
  payloadJson : String

/-- The counters there ever were, the calls under way by their threads, the keys that each drain has
still to visit, the rows of all drains, and how many `Record` calls are completed. -/
structure UnknownSourceInventory where
  counters : List Pending
  recording : ℕ → Option Recording
  draining : ℕ → List UnknownSourceKey
  rows : List UnknownSourceRow
  completed : ℕ

namespace UnknownSourceInventory

inductive Action where
  | getOrAdd (thread : ℕ) (configId reason sourceKey topic payloadJson : String)
  | count (thread : ℕ) (utcNow : ℤ)
  | keys (drain : ℕ)
  | tryRemove (drain : ℕ)
  | read (drain : ℕ)

def new : UnknownSourceInventory := ⟨[], fun _ => none, fun _ => [], [], 0⟩

variable (s : UnknownSourceInventory)

/-- `_pending[key]`. -/
def find (key : UnknownSourceKey) : Option ℕ :=
  s.counters.findIdx? fun e => e.place = .pending ∧ e.key = key

/-- `new Key(…)`, with the cut of a long source key. -/
def keyOf (configId reason sourceKey : String) : UnknownSourceKey :=
  ⟨configId, reason, String.ofList (sourceKey.toList.take 256)⟩

/-- The locked body of `Record`. -/
def counted (e : Pending) (r : Recording) (utcNow : ℤ) : Pending :=
  { e with
    count := e.count + 1
    lastTopic := some r.topic
    lastPayload := some r.payloadJson
    lastSeen := utcNow }

/-- One step; a step whose turn it is not changes nothing. -/
def step : Action → UnknownSourceInventory
  | .getOrAdd thread configId reason sourceKey topic payloadJson =>
      let key := keyOf configId reason sourceKey
      if (s.recording thread).isSome then s
      else
        match s.find key with
        | some i =>
            { s with recording := Function.update s.recording thread (some ⟨i, topic, payloadJson⟩) }
        | none =>
            { s with
              counters := s.counters ++ [⟨key, 0, none, none, 0, .pending⟩]
              recording := Function.update s.recording thread
                (some ⟨s.counters.length, topic, payloadJson⟩) }
  | .count thread utcNow =>
      match s.recording thread with
      | none => s
      | some r =>
          match s.counters[r.entry]? with
          | none => s
          | some e =>
              { s with
                counters := s.counters.set r.entry (counted e r utcNow)
                recording := Function.update s.recording thread none
                completed := s.completed + 1 }
  | .keys drain =>
      { s with
        draining := Function.update s.draining drain
          ((s.counters.filter fun e => e.place = .pending).map Pending.key) }
  | .tryRemove drain =>
      match s.draining drain with
      | [] => s
      | key :: rest =>
          -- the counter that was removed is read before the next key is visited
          if ∃ e ∈ s.counters, e.place = .removed drain then s
          else
            match s.find key with
            | none => { s with draining := Function.update s.draining drain rest }
            | some i =>
                { s with
                  counters := s.counters.modify i fun e => { e with place := .removed drain }
                  draining := Function.update s.draining drain rest }
  | .read drain =>
      match s.counters.findIdx? fun e => e.place = .removed drain with
      | none => s
      | some i =>
          match s.counters[i]? with
          | none => s
          | some e =>
              { s with
                counters := s.counters.set i { e with place := .read }
                rows := s.rows ++ [⟨e.key, e.lastSeen, e.count, e.lastTopic, e.lastPayload⟩] }

def after (actions : List Action) : UnknownSourceInventory := actions.foldl step new

def returned : ℕ := (s.rows.map UnknownSourceRow.messageCount).sum

def weight (e : Pending) : ℕ := if e.place = .read then 0 else e.count

def pending : ℕ := (s.counters.map weight).sum

/-- Every completed `Record` is in a row or still pending. -/
def Conserved : Prop := s.returned + s.pending = s.completed

def CountsLive : Action → Prop
  | .count thread _ => ∀ r ∈ s.recording thread, ∀ e ∈ s.counters[r.entry]?, e.place ≠ .read
  | _ => True

theorem sum_map_set {α : Type} (f : α → ℕ) {l : List α} {i : ℕ} {x : α} (h : l[i]? = some x) (y : α) :
    ((l.set i y).map f).sum + f x = (l.map f).sum + f y := by
  induction l generalizing i with
  | nil => cases h
  | cons a l ih =>
    cases i with
    | zero =>
      obtain rfl : a = x := Option.some.inj h
      rw [List.set_cons_zero, List.map_cons, List.map_cons, List.sum_cons, List.sum_cons]
      omega
    | succ i =>
      have hrest := ih (i := i) h
      rw [List.set_cons_succ, List.map_cons, List.map_cons, List.sum_cons, List.sum_cons]
      omega

theorem pending_set {i : ℕ} {e e' : Pending} (h : s.counters[i]? = some e)
    (heq : weight e' = weight e) :
    ((s.counters.set i e').map weight).sum = s.pending := by
  have hsum := sum_map_set weight h e'
  unfold pending
  omega

theorem exists_of_findIdx? {l : List Pending} {p : Pending → Bool} {i : ℕ}
    (h : l.findIdx? p = some i) : ∃ e, l[i]? = some e ∧ p e = true := by
  obtain ⟨hlt, hp, -⟩ := List.findIdx?_eq_some_iff_getElem.mp h
  exact ⟨l[i], List.getElem?_eq_getElem hlt, hp⟩

theorem conserved_step {s : UnknownSourceInventory} (h : s.Conserved) (a : Action) :
    (s.step a).Conserved ↔ s.CountsLive a := by
  cases a with
  | getOrAdd thread configId reason sourceKey topic payloadJson =>
    refine iff_of_true ?_ trivial
    unfold step
    dsimp only
    split
    · exact h
    · split
      · exact h
      · unfold Conserved returned pending at h ⊢
        dsimp only
        rw [List.map_append, List.sum_append]
        exact h
  | count thread utcNow =>
    unfold step CountsLive
    dsimp only
    split
    · rename_i hnone
      exact iff_of_true h fun r hr => by rw [hnone] at hr; cases hr
    · rename_i r hr
      split
      · rename_i hnone
        refine iff_of_true h fun r' hr' e he => ?_
        obtain rfl : r = r' := Option.some.inj (hr.symm.trans hr')
        rw [hnone] at he
        cases he
      · rename_i e he
        have hsum := sum_map_set weight he (counted e r utcNow)
        have hlive : (∀ r' ∈ s.recording thread, ∀ e' ∈ s.counters[r'.entry]?, e'.place ≠ .read) ↔
            e.place ≠ .read := by
          constructor
          · intro hall
            exact hall r hr e he
          · intro hplace r' hr' e' he'
            obtain rfl : r = r' := Option.some.inj (hr.symm.trans hr')
            obtain rfl : e = e' := Option.some.inj (he.symm.trans he')
            exact hplace
        rw [hlive]
        unfold Conserved returned pending at h ⊢
        dsimp only
        by_cases hread : e.place = .read
        · have hold : weight e = 0 := if_pos hread
          have hnew : weight (counted e r utcNow) = 0 := if_pos hread
          refine iff_of_false (fun hsame => ?_) fun hne => hne hread
          omega
        · have hold : weight e = e.count := if_neg hread
          have hnew : weight (counted e r utcNow) = e.count + 1 := if_neg hread
          refine iff_of_true ?_ hread
          omega
  | keys drain => exact iff_of_true h trivial
  | tryRemove drain =>
    refine iff_of_true ?_ trivial
    unfold step
    dsimp only
    split
    · exact h
    · split
      · exact h
      · split
        · exact h
        · rename_i i hfind
          obtain ⟨e, he, hpending⟩ := exists_of_findIdx? hfind
          have hplace : e.place = .pending := (of_decide_eq_true hpending).1
          have hmodify : (s.counters.modify i fun e => { e with place := .removed drain }) =
              s.counters.set i { e with place := .removed drain } := by
            rw [List.modify_eq_set_getElem?, he]
            rfl
          have hweight : weight { e with place := .removed drain } = weight e := by
            unfold weight
            rw [hplace]
            rfl
          unfold Conserved returned pending at h ⊢
          dsimp only
          rw [hmodify, pending_set s he hweight]
          exact h
  | read drain =>
    refine iff_of_true ?_ trivial
    unfold step
    dsimp only
    split
    · exact h
    · rename_i i hfind
      split
      · exact h
      · rename_i e he
        obtain ⟨e', he', hremoved⟩ := exists_of_findIdx? hfind
        obtain rfl : e = e' := Option.some.inj (he.symm.trans he')
        have hplace : e.place = .removed drain := of_decide_eq_true hremoved
        have hold : weight e = e.count := if_neg (by rw [hplace]; nofun)
        have hnew : weight { e with place := .read } = 0 := if_pos rfl
        have hsum := sum_map_set weight he { e with place := .read }
        unfold Conserved returned pending at h ⊢
        dsimp only
        rw [List.map_append, List.sum_append, List.map_singleton, List.sum_singleton]
        dsimp only
        omega

/-- The counts are conserved at every moment of a run exactly when no step counts into a counter that
was read. -/
theorem conserved_iff_countsLive (actions : List Action) :
    (∀ before a rest, actions = before ++ a :: rest → (after (before ++ [a])).Conserved) ↔
      ∀ before a rest, actions = before ++ a :: rest → (after before).CountsLive a := by
  have hstep (before : List Action) (a : Action) :
      after (before ++ [a]) = (after before).step a := List.foldl_concat _ _ _ _
  refine forall_split_congr (fun before => (after before).Conserved) rfl ?_ ?_ actions
  · intro before a h hlive
    rw [hstep]
    exact (conserved_step h a).mpr hlive
  · intro before a h
    rw [hstep]
    exact conserved_step h a

/-- A drain removes and reads a counter between the two steps of a `Record`. -/
def overtaken : List Action :=
  [.getOrAdd 1 "c-1" "UNREGISTERED_LOOP" "FIC-101" "t" "x", .keys 2, .tryRemove 2, .read 2, .count 1 0]

/-- Its count is lost. -/
theorem overtaken_loses : ¬ ∀ before a rest, overtaken = before ++ a :: rest →
    (after (before ++ [a])).Conserved := by
  intro h
  have hlast := h (overtaken.take 4) (.count 1 0) [] rfl
  revert hlast
  unfold Conserved
  decide

end UnknownSourceInventory

end OpenBridge.Ingestion
