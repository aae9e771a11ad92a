import Mathlib.Data.List.Forall2
import Mathlib.Data.List.Induction

/-!
# Foundation: hash chains

Records that each carry a value of their own and the value of the record before them.
-/

namespace OpenBridge.Foundation

namespace HashChain

variable {ρ η : Type} (previous current : ρ → η)

/-- Every record carries the value of the one before it, the first one a given value. -/
def Linked (start : η) : List ρ → Prop
  | [] => True
  | r :: rest => previous r = start ∧ Linked (current r) rest

def endOf (start : η) (rs : List ρ) : η := (rs.getLast?.map current).getD start

@[simp] theorem endOf_nil (start : η) : endOf current start [] = start := rfl

@[simp] theorem endOf_concat (start : η) (rs : List ρ) (r : ρ) :
    endOf current start (rs ++ [r]) = current r := by
  simp only [endOf, List.getLast?_concat, Option.map_some, Option.getD_some]

theorem endOf_cons (start : η) (r : ρ) (rs : List ρ) :
    endOf current start (r :: rs) = endOf current (current r) rs := by
  cases h : rs.getLast? with
  | none => simp only [endOf, List.getLast?_cons, h, Option.getD_none, Option.map_some,
      Option.getD_some, Option.map_none]
  | some last => simp only [endOf, List.getLast?_cons, h, Option.getD_some, Option.map_some]

variable {previous current}

theorem linked_append {start : η} {xs ys : List ρ} : Linked previous current start (xs ++ ys) ↔
    Linked previous current start xs ∧ Linked previous current (endOf current start xs) ys := by
  induction xs generalizing start with
  | nil => exact ⟨fun h => ⟨trivial, h⟩, And.right⟩
  | cons x xs ih =>
    rw [List.cons_append, Linked, Linked, ih, endOf_cons, and_assoc]

theorem linked_concat {start : η} {xs : List ρ} {x : ρ} :
    Linked previous current start (xs ++ [x]) ↔
      Linked previous current start xs ∧ previous x = endOf current start xs := by
  rw [linked_append]
  exact and_congr_right fun _ => ⟨And.left, fun h => ⟨h, trivial⟩⟩

theorem forall₂_of_endOf_eq {start : η} {xs ys : List ρ} (hx : Linked previous current start xs)
    (hy : Linked previous current start ys)
    (hback : ∀ x ∈ xs, ∀ y ∈ ys, current x = current y → previous x = previous y)
    (hxstart : ∀ x ∈ xs, current x ≠ start) (hystart : ∀ y ∈ ys, current y ≠ start)
    (hend : endOf current start xs = endOf current start ys) :
    List.Forall₂ (fun x y => current x = current y) xs ys := by
  induction xs using List.reverseRecOn generalizing ys with
  | nil =>
    cases ys using List.reverseRecOn with
    | nil => exact List.Forall₂.nil
    | append_singleton ys y =>
      rw [endOf_nil, endOf_concat] at hend
      exact absurd hend.symm (hystart y List.mem_concat_self)
  | append_singleton xs x ih =>
    cases ys using List.reverseRecOn with
    | nil =>
      rw [endOf_nil, endOf_concat] at hend
      exact absurd hend (hxstart x List.mem_concat_self)
    | append_singleton ys y =>
      rw [endOf_concat, endOf_concat] at hend
      rw [linked_concat] at hx hy
      have hprev : previous x = previous y :=
        hback x List.mem_concat_self y List.mem_concat_self hend
      have hrest : List.Forall₂ (fun x y => current x = current y) xs ys := by
        refine ih hx.1 hy.1 ?_ ?_ ?_ (hx.2.symm.trans (hprev.trans hy.2))
        · intro a ha b hb
          exact hback a (List.mem_append_left _ ha) b (List.mem_append_left _ hb)
        · intro a ha
          exact hxstart a (List.mem_append_left _ ha)
        · intro b hb
          exact hystart b (List.mem_append_left _ hb)
      exact List.rel_append hrest (List.Forall₂.cons hend List.Forall₂.nil)

end HashChain

end OpenBridge.Foundation
