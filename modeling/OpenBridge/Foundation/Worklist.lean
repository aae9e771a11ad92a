import Mathlib.Data.Finset.Card

/-!
# Foundation: worklists

A loop takes the first node of a worklist, skips it when it was taken before or is not known, and
else uses it and adds its successors to the worklist, in whatever place.
-/

namespace OpenBridge.Foundation

universe u v

namespace Worklist

variable {α : Type u} {β : Type v} [DecidableEq α] (known : List α) (succ : α → List α)
  (push : List α → List α → List α)

def left (seen : List α) : ℕ := (known.toFinset \ seen.toFinset).card

variable {known} in
theorem left_cons (seen : List α) (x : α) :
    left known (x :: seen) = ((known.toFinset \ seen.toFinset).erase x).card := by
  unfold left
  rw [List.toFinset_cons, Finset.sdiff_insert]

/-- The loop: the nodes that were taken, and what was accumulated over those that were used. -/
def walk (f : β → α → β) (acc : β) (seen : List α) : List α → β
  | [] => acc
  | x :: rest =>
      if x ∈ seen then walk f acc seen rest
      else if x ∈ known then walk f (f acc x) (x :: seen) (push (succ x) rest)
      else walk f acc (x :: seen) rest
  termination_by stack => (left known seen, stack.length)
  decreasing_by
    · exact Prod.Lex.right _ (Nat.lt_succ_self _)
    · rename_i hseen hknown
      refine Prod.Lex.left _ _ ?_
      rw [left_cons]
      exact Finset.card_erase_lt_of_mem
        (Finset.mem_sdiff.mpr ⟨List.mem_toFinset.mpr hknown, by rwa [List.mem_toFinset]⟩)
    · rename_i hseen _
      have hle : left known (x :: seen) ≤ left known seen := by
        rw [left_cons]
        exact Finset.card_erase_le
      rcases hle.lt_or_eq with hlt | heq
      · exact Prod.Lex.left _ _ hlt
      · rw [heq]
        exact Prod.Lex.right _ (Nat.lt_succ_self _)

def used (stack : List α) : List α := walk known succ push (fun l x => x :: l) [] [] stack

variable {known succ push}

theorem walk_eq_foldr (f : β → α → β) (acc : β) (l seen stack : List α) :
    walk known succ push f (l.foldr (fun x b => f b x) acc) seen stack =
      (walk known succ push (fun l x => x :: l) l seen stack).foldr (fun x b => f b x) acc := by
  fun_induction walk known succ push (fun l x => x :: l) l seen stack with
  | case1 l seen => rw [walk]
  | case2 l seen x rest hseen ih => rw [walk, if_pos hseen, ih]
  | case3 l seen x rest hseen hknown ih =>
    rw [walk, if_neg hseen, if_pos hknown, ← ih, List.foldr_cons]
  | case4 l seen x rest hseen hknown ih => rw [walk, if_neg hseen, if_neg hknown, ih]

theorem walk_eq_used (f : β → α → β) (acc : β) (stack : List α) :
    walk known succ push f acc [] stack =
      (used known succ push stack).foldr (fun x b => f b x) acc :=
  walk_eq_foldr f acc [] [] stack

abbrev Leads (succ : α → List α) : α → α → Prop := Relation.ReflTransGen fun a b => b ∈ succ a

variable (hpush : ∀ new rest x, x ∈ push new rest ↔ x ∈ new ∨ x ∈ rest)
  (hsucc : ∀ x ∈ known, ∀ y ∈ succ x, y ∈ known)

include hpush in
theorem sound {l seen stack : List α} {y : α}
    (h : y ∈ walk known succ push (fun l x => x :: l) l seen stack) :
    y ∈ l ∨ ∃ r ∈ stack, r ∈ known ∧ Leads succ r y := by
  fun_induction walk known succ push (fun l x => x :: l) l seen stack with
  | case1 l seen => exact .inl h
  | case2 l seen x rest hseen ih =>
    refine (ih h).imp_right ?_
    rintro ⟨r, hr, hlead⟩
    exact ⟨r, List.mem_cons_of_mem _ hr, hlead⟩
  | case3 l seen x rest hseen hknown ih =>
    rcases ih h with hy | ⟨r, hr, hrknown, hlead⟩
    · rcases List.mem_cons.mp hy with rfl | hy
      · exact .inr ⟨y, List.mem_cons_self, hknown, .refl⟩
      · exact .inl hy
    · rcases (hpush _ _ _).mp hr with hr | hr
      · exact .inr ⟨x, List.mem_cons_self, hknown, .head hr hlead⟩
      · exact .inr ⟨r, List.mem_cons_of_mem _ hr, hrknown, hlead⟩
  | case4 l seen x rest hseen hknown ih =>
    refine (ih h).imp_right ?_
    rintro ⟨r, hr, hlead⟩
    exact ⟨r, List.mem_cons_of_mem _ hr, hlead⟩

include hpush in
theorem closed {l seen stack : List α} (hseen : ∀ y ∈ known, y ∈ seen → y ∈ l)
    (hcovered : ∀ y ∈ l, ∀ z ∈ succ y, z ∈ seen ∨ z ∈ stack) :
    (∀ y ∈ known, y ∈ l ∨ y ∈ stack → y ∈ walk known succ push (fun l x => x :: l) l seen stack) ∧
      ∀ y ∈ walk known succ push (fun l x => x :: l) l seen stack, ∀ z ∈ succ y, z ∈ known →
        z ∈ walk known succ push (fun l x => x :: l) l seen stack := by
  fun_induction walk known succ push (fun l x => x :: l) l seen stack with
  | case1 l seen =>
    refine ⟨fun y _ hy => hy.resolve_right List.not_mem_nil, fun y hy z hz hknown => ?_⟩
    exact hseen z hknown ((hcovered y hy z hz).resolve_right List.not_mem_nil)
  | case2 l seen x rest hx ih =>
    have htaken : ∀ z, z ∈ seen ∨ z ∈ x :: rest → z ∈ seen ∨ z ∈ rest := fun z hz => by
      rcases hz with hz | hz
      · exact .inl hz
      · rcases List.mem_cons.mp hz with rfl | hz
        · exact .inl hx
        · exact .inr hz
    obtain ⟨hall, hclosed⟩ := ih hseen fun y hy z hz => htaken z (hcovered y hy z hz)
    refine ⟨fun y hknown hy => hall y hknown ?_, hclosed⟩
    rcases hy with hy | hy
    · exact .inl hy
    · exact (htaken y (.inr hy)).imp_left (hseen y hknown)
  | case3 l seen x rest hx hknown ih =>
    have hseen' : ∀ y ∈ known, y ∈ x :: seen → y ∈ x :: l := fun y hy hmem => by
      rcases List.mem_cons.mp hmem with rfl | hmem
      · exact List.mem_cons_self
      · exact List.mem_cons_of_mem _ (hseen y hy hmem)
    obtain ⟨hall, hclosed⟩ := ih hseen' fun y hy z hz => by
      rw [hpush, List.mem_cons]
      rcases List.mem_cons.mp hy with rfl | hy
      · exact .inr (.inl hz)
      · rcases hcovered y hy z hz with hz | hz
        · exact .inl (.inr hz)
        · exact (List.mem_cons.mp hz).imp .inl .inr
    refine ⟨fun y hy hmem => hall y hy ?_, hclosed⟩
    rw [hpush, List.mem_cons]
    rcases hmem with hmem | hmem
    · exact .inl (.inr hmem)
    · exact (List.mem_cons.mp hmem).imp .inl .inr
  | case4 l seen x rest hx hknown ih =>
    have hskip : ∀ y ∈ known, y ∈ x :: seen → y ∈ seen := fun y hy hmem => by
      rcases List.mem_cons.mp hmem with rfl | hmem
      · exact absurd hy hknown
      · exact hmem
    obtain ⟨hall, hclosed⟩ := ih (fun y hy hmem => hseen y hy (hskip y hy hmem)) fun y hy z hz => by
      rw [List.mem_cons]
      rcases hcovered y hy z hz with hz | hz
      · exact .inl (.inr hz)
      · exact (List.mem_cons.mp hz).imp_left .inl
    refine ⟨fun y hy hmem => hall y hy ?_, hclosed⟩
    rcases hmem with hmem | hmem
    · exact .inl hmem
    · rcases List.mem_cons.mp hmem with rfl | hmem
      · exact absurd hy hknown
      · exact .inr hmem

include hpush hsucc in
theorem mem_used_iff {stack : List α} {y : α} :
    y ∈ used known succ push stack ↔ ∃ r ∈ stack, r ∈ known ∧ Leads succ r y := by
  constructor
  · exact fun h => (sound hpush h).resolve_left List.not_mem_nil
  · rintro ⟨r, hr, hknown, hlead⟩
    have hclosure := @closed α _ known succ push hpush [] [] stack (fun _ _ h => h)
      fun _ h => absurd h List.not_mem_nil
    obtain ⟨hall, hclosed⟩ := hclosure
    have hused : y ∈ known ∧ y ∈ used known succ push stack := by
      induction hlead with
      | refl => exact ⟨hknown, hall r hknown (.inr hr)⟩
      | tail _ hstep ih =>
        have hnext := hsucc _ ih.1 _ hstep
        exact ⟨hnext, hclosed _ ih.2 _ hstep hnext⟩
    exact hused.2

end Worklist

end OpenBridge.Foundation
