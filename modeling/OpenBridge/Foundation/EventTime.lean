import Mathlib.Algebra.Order.Ring.Int

/-!
# Foundation: event-time timers

The timers of one key are a set of times.  An advance of the watermark takes the timers that are
due, the earliest first, and hands each to a callback, which may register one more for a later time.
-/

namespace OpenBridge.Foundation

universe u v

structure Timers where
  times : List ℤ
  ascending : times.Pairwise (· < ·)

namespace Timers

def empty : Timers := ⟨[], List.Pairwise.nil⟩

@[simp] theorem times_empty : empty.times = [] := rfl

def insertTime (t : ℤ) : List ℤ → List ℤ
  | [] => [t]
  | u :: rest => if t < u then t :: u :: rest else if t = u then u :: rest else u :: insertTime t rest

theorem mem_insertTime {t x : ℤ} {us : List ℤ} : x ∈ insertTime t us ↔ x = t ∨ x ∈ us := by
  induction us with
  | nil => simp [insertTime]
  | cons u rest ih =>
    unfold insertTime
    split
    · simp
    · split
      · rename_i h
        subst h
        simp
      · simp only [List.mem_cons, ih]
        exact or_left_comm

theorem pairwise_insertTime {t : ℤ} {us : List ℤ} (h : us.Pairwise (· < ·)) :
    (insertTime t us).Pairwise (· < ·) := by
  induction us with
  | nil => exact List.pairwise_singleton _ _
  | cons u rest ih =>
    obtain ⟨hu, hrest⟩ := List.pairwise_cons.mp h
    unfold insertTime
    split
    · rename_i hlt
      refine List.pairwise_cons.mpr ⟨fun x hx => ?_, h⟩
      rcases List.mem_cons.mp hx with rfl | hx
      · exact hlt
      · exact lt_trans hlt (hu x hx)
    · split
      · exact h
      · refine List.pairwise_cons.mpr ⟨fun x hx => ?_, ih hrest⟩
        rcases mem_insertTime.mp hx with rfl | hx
        · omega
        · exact hu x hx

/-- `registerEventTimeTimer`. -/
def register (t : ℤ) (ts : Timers) : Timers := ⟨insertTime t ts.times, pairwise_insertTime ts.ascending⟩

@[simp] theorem mem_register {t x : ℤ} {ts : Timers} :
    x ∈ (ts.register t).times ↔ x = t ∨ x ∈ ts.times :=
  mem_insertTime

def registerNext {t : ℤ} (next : Option {u : ℤ // t < u}) (ts : Timers) : Timers :=
  match next with
  | none => ts
  | some u => ts.register u.1

theorem mem_registerNext {t x : ℤ} {next : Option {u : ℤ // t < u}} {ts : Timers} :
    x ∈ (ts.registerNext next).times ↔ (∃ u, next = some u ∧ x = u.1) ∨ x ∈ ts.times := by
  cases next with
  | none => simp [registerNext]
  | some u => simp [registerNext]

/-- The earliest timer when it is due at `w`, and the timers that remain. -/
def pop (w : ℤ) : Timers → Option (ℤ × Timers)
  | ⟨[], _⟩ => none
  | ⟨t :: rest, h⟩ => if t ≤ w then some (t, ⟨rest, h.of_cons⟩) else none

theorem lt_of_pop_none {w : ℤ} {ts : Timers} (h : ts.pop w = none) : ∀ x ∈ ts.times, w < x := by
  obtain ⟨times, hasc⟩ := ts
  cases times with
  | nil => simp
  | cons t rest =>
    simp only [pop, ite_eq_right_iff, reduceCtorEq, imp_false, not_le] at h
    intro x hx
    rcases List.mem_cons.mp hx with rfl | hx
    · exact h
    · exact lt_trans h ((List.pairwise_cons.mp hasc).1 x hx)

theorem pop_some {w t : ℤ} {ts rest : Timers} (h : ts.pop w = some (t, rest)) :
    t ≤ w ∧ (∀ x ∈ rest.times, t < x) ∧ ts.times = t :: rest.times := by
  obtain ⟨times, hasc⟩ := ts
  cases times with
  | nil => simp [pop] at h
  | cons t' rest' =>
    simp only [pop, Option.ite_none_right_eq_some, Option.some.injEq, Prod.mk.injEq] at h
    obtain ⟨hle, rfl, rfl⟩ := h
    exact ⟨hle, (List.pairwise_cons.mp hasc).1, rfl⟩

/-- A bound of the timers that an advance to `w` takes. -/
def work (w : ℤ) (ts : Timers) : ℕ := (ts.times.map fun t => (w + 1 - t).toNat).sum

theorem sum_insertTime_le (f : ℤ → ℕ) (t : ℤ) (us : List ℤ) :
    ((insertTime t us).map f).sum ≤ f t + (us.map f).sum := by
  induction us with
  | nil => simp [insertTime]
  | cons u rest ih =>
    unfold insertTime
    split
    · simp
    · split
      · simp
      · simp only [List.map_cons, List.sum_cons]
        omega

theorem work_registerNext_lt {w t : ℤ} {ts rest : Timers} (h : ts.pop w = some (t, rest))
    (next : Option {u : ℤ // t < u}) : (rest.registerNext next).work w < ts.work w := by
  obtain ⟨hle, -, htimes⟩ := pop_some h
  have hwork : ts.work w = (w + 1 - t).toNat + rest.work w := by
    rw [work, htimes, List.map_cons, List.sum_cons, work]
  rw [hwork]
  cases next with
  | none =>
    simp only [registerNext]
    omega
  | some u =>
    have hinsert : (rest.register u.1).work w ≤ (w + 1 - u.1).toNat + rest.work w :=
      sum_insertTime_le _ u.1 rest.times
    have hlater := u.2
    simp only [registerNext]
    omega

end Timers

section Advance

variable {σ : Type u} {ο : Type v} (onTimer : σ → (t : ℤ) → σ × List ο × Option {u : ℤ // t < u})

def advance (w : ℤ) (ts : Timers) (s : σ) : Timers × σ × List ο :=
  match _h : ts.pop w with
  | none => (ts, s, [])
  | some (t, rest) =>
      let fired := onTimer s t
      let later := advance w (rest.registerNext fired.2.2) fired.1
      (later.1, later.2.1, fired.2.1 ++ later.2.2)
termination_by ts.work w
decreasing_by exact Timers.work_registerNext_lt _h _

theorem advance_of_pop_none {w : ℤ} {ts : Timers} {s : σ} (h : ts.pop w = none) :
    advance onTimer w ts s = (ts, s, []) := by
  rw [advance]
  split
  · rfl
  · rename_i hsome
    rw [h] at hsome
    cases hsome

theorem advance_of_pop_some {w t : ℤ} {ts rest : Timers} {s : σ} (h : ts.pop w = some (t, rest)) :
    advance onTimer w ts s =
      let later := advance onTimer w (rest.registerNext (onTimer s t).2.2) (onTimer s t).1
      (later.1, later.2.1, (onTimer s t).2.1 ++ later.2.2) := by
  rw [advance]
  split
  · rename_i hnone
    rw [h] at hnone
    cases hnone
  · rename_i hsome
    rw [h] at hsome
    cases hsome
    rfl

theorem advance_rule {w : ℤ} (P : Timers → σ → Prop) (hdone : ∀ ts s, ts.pop w = none → P ts s)
    (htake : ∀ ts s t rest, ts.pop w = some (t, rest) →
      P (rest.registerNext (onTimer s t).2.2) (onTimer s t).1 → P ts s)
    (ts : Timers) (s : σ) : P ts s := by
  cases h : ts.pop w with
  | none => exact hdone ts s h
  | some p =>
    obtain ⟨t, rest⟩ := p
    exact htake ts s t rest h (advance_rule P hdone htake _ _)
termination_by ts.work w
decreasing_by exact Timers.work_registerNext_lt h _

def fireDue (w : ℤ) (p : Timers × σ) : Timers × σ :=
  match p.1.pop w with
  | none => p
  | some (t, rest) => (rest.registerNext (onTimer p.2 t).2.2, (onTimer p.2 t).1)

theorem exists_fireDue (w : ℤ) (ts : Timers) (s : σ) : ∃ n,
    (fireDue onTimer w)^[n] (ts, s) = ((advance onTimer w ts s).1, (advance onTimer w ts s).2.1) ∧
      (advance onTimer w ts s).1.pop w = none := by
  refine advance_rule onTimer (w := w) (fun ts s => ∃ n, (fireDue onTimer w)^[n] (ts, s) =
    ((advance onTimer w ts s).1, (advance onTimer w ts s).2.1) ∧
      (advance onTimer w ts s).1.pop w = none) ?_ ?_ ts s
  · intro ts s hpop
    rw [advance_of_pop_none onTimer hpop]
    exact ⟨0, rfl, hpop⟩
  · rintro ts s t rest hpop ⟨n, hn, hnone⟩
    have hfire : fireDue onTimer w (ts, s) =
        (rest.registerNext (onTimer s t).2.2, (onTimer s t).1) := by
      rw [fireDue, hpop]
    rw [advance_of_pop_some onTimer hpop]
    exact ⟨n + 1, by rw [Function.iterate_succ_apply, hfire, hn], hnone⟩

theorem fireDue_invariant {w : ℤ} {P : Timers → σ → Prop}
    (htake : ∀ ts s t rest, P ts s → ts.pop w = some (t, rest) →
      P (rest.registerNext (onTimer s t).2.2) (onTimer s t).1)
    {ts : Timers} {s : σ} (h : P ts s) (n : ℕ) :
    P ((fireDue onTimer w)^[n] (ts, s)).1 ((fireDue onTimer w)^[n] (ts, s)).2 := by
  induction n with
  | zero => exact h
  | succ n ih =>
    rw [Function.iterate_succ_apply', fireDue]
    split
    · exact ih
    · rename_i t rest hpop
      exact htake _ _ t rest ih hpop

end Advance

end OpenBridge.Foundation
