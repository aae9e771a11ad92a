import Mathlib.Data.List.Basic

/-!
# Foundation: slots

Operations in flight are kept in a list, each in a slot of its own, and one of them is replaced at a
time.
-/

namespace OpenBridge.Foundation

namespace Slots

variable {α : Type} {p : α → Bool} {l : List α} {k : ℕ} {a b : α}

theorem countP_set_le (hk : l[k]? = some a) (hle : p b = true → p a = true) :
    (l.set k b).countP p ≤ l.countP p := by
  obtain ⟨hlt, hget⟩ := List.getElem?_eq_some_iff.mp hk
  have hcount := List.countP_set (p := p) (a := b) hlt
  rw [hget] at hcount
  cases ha : p a with
  | false =>
    have hb : ¬ p b = true := fun hb => Bool.false_ne_true (ha.symm.trans (hle hb))
    rw [hcount, ha, if_neg hb]
    exact Nat.sub_le _ _
  | true =>
    have hpos : 0 < l.countP p := List.countP_pos_iff.mpr ⟨a, List.mem_of_getElem? hk, ha⟩
    rw [hcount, ha, if_pos rfl]
    split
    · omega
    · omega

theorem countP_set_of_not (hk : l[k]? = some a) : (l.set k b).countP p ≤ l.countP p + 1 := by
  obtain ⟨hlt, -⟩ := List.getElem?_eq_some_iff.mp hk
  rw [List.countP_set hlt]
  split <;> split <;> omega

theorem countP_set_lt (hk : l[k]? = some a) (ha : p a = true) (hb : ¬ p b = true) :
    (l.set k b).countP p + 1 = l.countP p := by
  obtain ⟨hlt, hget⟩ := List.getElem?_eq_some_iff.mp hk
  have hpos : 0 < l.countP p := List.countP_pos_iff.mpr ⟨a, List.mem_of_getElem? hk, ha⟩
  rw [List.countP_set hlt, hget, if_pos ha, if_neg hb]
  omega

theorem getElem?_set_cases {j : ℕ} (h : (l.set k a)[j]? = some b) :
    (j = k ∧ b = a) ∨ (j ≠ k ∧ l[j]? = some b) := by
  rw [List.getElem?_set] at h
  split at h
  · rename_i hkj
    split at h
    · exact .inl ⟨hkj.symm, (Option.some.inj h).symm⟩
    · cases h
  · rename_i hkj
    exact .inr ⟨fun hjk => hkj hjk.symm, h⟩

theorem mem_set_of_ne {c : α} (hk : l[k]? = some b) (ha : a ∈ l) (hne : a ≠ b) : a ∈ l.set k c := by
  obtain ⟨i, hi⟩ := List.mem_iff_getElem?.mp ha
  have hik : k ≠ i := by
    rintro rfl
    exact hne (Option.some.inj (hi.symm.trans hk))
  exact List.mem_iff_getElem?.mpr ⟨i, by rw [List.getElem?_set_ne hik]; exact hi⟩

end Slots

end OpenBridge.Foundation
