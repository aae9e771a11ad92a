import Mathlib.Data.List.Induction

/-!
# Foundation: greedy selection

Elements are taken in order; an element that is hit by one already taken is left out.  Leaving out
what any earlier element hits comes to the same where every element that is hit by an earlier one is
hit by an earlier one that none hits.
-/

namespace OpenBridge.Foundation

universe u

namespace Greedy

variable {α : Type u} (hits : α → α → Bool)

def take (taken : List α) (a : α) : List α := if taken.any (hits a) then taken else taken ++ [a]

def winners (l : List α) : List α := l.foldl (take hits) []

@[simp] theorem winners_nil : winners hits [] = [] := rfl

theorem winners_concat (l : List α) (a : α) :
    winners hits (l ++ [a]) =
      if (winners hits l).any (hits a) then winners hits l else winners hits l ++ [a] := by
  unfold winners
  rw [List.foldl_append, List.foldl_cons, List.foldl_nil]
  rfl

variable {hits}

theorem winners_sublist (l : List α) : (winners hits l).Sublist l := by
  induction l using List.reverseRecOn with
  | nil => exact List.Sublist.refl _
  | append_singleton l a ih =>
    rw [winners_concat]
    split
    · exact ih.trans (List.sublist_append_left _ _)
    · exact ih.append_right _

theorem mem_of_mem_winners {l : List α} {a : α} (h : a ∈ winners hits l) : a ∈ l :=
  (winners_sublist l).subset h

theorem any_eq_false {l : List α} {a : α} :
    l.any (hits a) = false ↔ ∀ w ∈ l, hits a w = false := by
  rw [List.any_eq_false]
  exact forall₂_congr fun w _ => Iff.of_eq (Bool.not_eq_true _)

theorem pairwise_winners (l : List α) : (winners hits l).Pairwise fun w a => hits a w = false := by
  induction l using List.reverseRecOn with
  | nil => exact List.Pairwise.nil
  | append_singleton l a ih =>
    rw [winners_concat]
    split
    · exact ih
    · rename_i hnone
      rw [Bool.not_eq_true, any_eq_false] at hnone
      refine List.pairwise_append.mpr ⟨ih, List.pairwise_singleton _ _, ?_⟩
      intro w hw b hb
      rw [List.mem_singleton.mp hb]
      exact hnone w hw

section Ordered

variable {lt : α → α → Prop} [Std.Asymm lt]

theorem mem_winners_iff {l : List α} (h : l.Pairwise lt) {a : α} (ha : a ∈ l) :
    a ∈ winners hits l ↔ ∀ w ∈ winners hits l, lt w a → hits a w = false := by
  induction l using List.reverseRecOn generalizing a with
  | nil => cases ha
  | append_singleton l b ih =>
    obtain ⟨hl, -, hlast⟩ := List.pairwise_append.mp h
    have hbefore : ∀ a ∈ l, lt a b := fun a ha => hlast a ha b (List.mem_singleton_self b)
    have hirrefl : ∀ c : α, ¬ lt c c := fun c hc => Std.Asymm.asymm c c hc hc
    have hwinner : ∀ w ∈ winners hits l, lt w b := fun w hw => hbefore w (mem_of_mem_winners hw)
    have hnew : b ∉ winners hits l := fun hb => hirrefl b (hwinner b hb)
    rw [winners_concat]
    rcases List.mem_append.mp ha with ha | ha
    · have hne : a ≠ b := fun heq => hirrefl b (heq ▸ hbefore a ha)
      have hnot : ¬ lt b a := fun hba => Std.Asymm.asymm a b (hbefore a ha) hba
      split
      · exact ih hl ha
      · simp only [List.mem_append, List.mem_singleton, hne, or_false, ih hl ha]
        constructor
        · intro hall w hw hlt
          rcases hw with hw | rfl
          · exact hall w hw hlt
          · exact absurd hlt hnot
        · intro hall w hw
          exact hall w (Or.inl hw)
    · obtain rfl := List.mem_singleton.mp ha
      split
      · rename_i hhit
        refine iff_of_false hnew fun hall => ?_
        obtain ⟨w, hw, hhit⟩ := List.any_eq_true.mp hhit
        rw [hall w hw (hwinner w hw)] at hhit
        cases hhit
      · rename_i hnone
        rw [Bool.not_eq_true, any_eq_false] at hnone
        refine iff_of_true (List.mem_append_right _ ha) fun w hw hlt => ?_
        rcases List.mem_append.mp hw with hw | hw
        · exact hnone w hw
        · rw [List.mem_singleton.mp hw] at hlt
          exact absurd hlt (hirrefl a)

theorem exists_of_not_mem_winners {l : List α} (h : l.Pairwise lt) {a : α} (ha : a ∈ l)
    (hout : a ∉ winners hits l) : ∃ w ∈ winners hits l, lt w a ∧ hits a w = true := by
  by_contra hnone
  refine hout ((mem_winners_iff h ha).mpr fun w hw hlt => ?_)
  rw [← Bool.not_eq_true]
  exact fun hhit => hnone ⟨w, hw, hlt, hhit⟩

/-- No earlier element hits `a`. -/
def Unhit (hits : α → α → Bool) (lt : α → α → Prop) (l : List α) (a : α) : Prop :=
  ∀ o ∈ l, lt o a → hits a o = false

theorem mem_winners_of_unhit {l : List α} (h : l.Pairwise lt) {a : α} (ha : a ∈ l)
    (hunhit : Unhit hits lt l a) : a ∈ winners hits l :=
  (mem_winners_iff h ha).mpr fun w hw => hunhit w (mem_of_mem_winners hw)

theorem winners_eq_unhit_iff (hits : α → α → Bool) {l : List α} (h : l.Pairwise lt) :
    (∀ a ∈ l, a ∉ winners hits l ↔ ∃ o ∈ l, lt o a ∧ hits a o = true) ↔
      ∀ a ∈ l, ∀ o ∈ l, lt o a → hits a o = true →
        ∃ w ∈ l, lt w a ∧ hits a w = true ∧ Unhit hits lt l w := by
  constructor
  · intro hagree a ha o ho hlt hhit
    obtain ⟨w, hw, hwlt, hwhit⟩ :=
      exists_of_not_mem_winners h ha ((hagree a ha).mpr ⟨o, ho, hlt, hhit⟩)
    refine ⟨w, mem_of_mem_winners hw, hwlt, hwhit, fun v hv hvlt => ?_⟩
    by_contra hvhit
    rw [Bool.not_eq_false] at hvhit
    exact (hagree w (mem_of_mem_winners hw)).mpr ⟨v, hv, hvlt, hvhit⟩ hw
  · intro hcovered a ha
    constructor
    · intro hout
      obtain ⟨w, hw, hlt, hhit⟩ := exists_of_not_mem_winners h ha hout
      exact ⟨w, mem_of_mem_winners hw, hlt, hhit⟩
    · intro hhit hin
      obtain ⟨o, ho, hlt, hhit⟩ := hhit
      obtain ⟨w, hw, hwlt, hwhit, hunhit⟩ := hcovered a ha o ho hlt hhit
      have hfree := (mem_winners_iff h ha).mp hin w (mem_winners_of_unhit h hw hunhit) hwlt
      rw [hwhit] at hfree
      cases hfree

end Ordered

end Greedy

end OpenBridge.Foundation
