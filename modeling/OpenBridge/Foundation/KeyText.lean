import Mathlib.Data.List.Induction
import Mathlib.Algebra.Ring.Int.Defs

/-!
# Foundation: keys that end in numbers

Record keys are printed with numbers after a separator; the text of such a key determines the
numbers, whatever stands before them.
-/

namespace OpenBridge.Foundation

namespace KeyText

theorem natRepr_injective {m n : ℕ} (h : Nat.repr m = Nat.repr n) : m = n := by
  have hlist := congrArg String.toList h
  rw [Nat.toList_repr, Nat.toList_repr] at hlist
  rw [← @Nat.ofDigitChars_ten_toDigits m, hlist, Nat.ofDigitChars_ten_toDigits]

theorem isDigit_of_mem_natRepr {n : ℕ} {c : Char} (h : c ∈ (Nat.repr n).toList) :
    c.isDigit = true := by
  rw [Nat.toList_repr] at h
  exact Nat.isDigit_of_mem_toDigits (by decide) (by decide) h

theorem toString_cases (n : ℤ) : ∃ k : ℕ,
    (n = k ∧ toString n = Nat.repr k) ∨ (n = -(k : ℤ) ∧ 0 < k ∧ toString n = "-" ++ Nat.repr k) := by
  cases n with
  | ofNat k => exact ⟨k, Or.inl ⟨rfl, rfl⟩⟩
  | negSucc k => exact ⟨k + 1, Or.inr ⟨rfl, Nat.succ_pos k, rfl⟩⟩

theorem toString_injective {a b : ℤ} (h : toString a = toString b) : a = b := by
  have hsign (k l : ℕ) : Nat.repr k ≠ "-" ++ Nat.repr l := by
    intro heq
    have hmem : '-' ∈ (Nat.repr k).toList := by simp [heq]
    exact absurd (isDigit_of_mem_natRepr hmem) (by decide)
  obtain ⟨k, ⟨rfl, hk⟩ | ⟨rfl, -, hk⟩⟩ := toString_cases a <;>
    obtain ⟨l, ⟨rfl, hl⟩ | ⟨rfl, -, hl⟩⟩ := toString_cases b <;>
    rw [hk, hl] at h
  · rw [natRepr_injective h]
  · exact absurd h (hsign k l)
  · exact absurd h.symm (hsign l k)
  · rw [natRepr_injective ((String.append_right_inj "-").mp h)]

theorem not_mem_toString {sep : Char} (hdigit : sep.isDigit = false) (hsign : sep ≠ '-') (n : ℤ) :
    sep ∉ (toString n).toList := by
  intro h
  have hrepr (k : ℕ) : sep ∉ (Nat.repr k).toList := by
    intro hmem
    rw [isDigit_of_mem_natRepr hmem] at hdigit
    cases hdigit
  obtain ⟨k, ⟨-, hk⟩ | ⟨-, -, hk⟩⟩ := toString_cases n <;> rw [hk] at h
  · exact hrepr k h
  · rw [String.toList_append, List.mem_append] at h
    rcases h with h | h
    · exact hsign (List.mem_singleton.mp h)
    · exact hrepr k h

theorem split_last {sep : Char} {a b x y : List Char} (hx : sep ∉ x) (hy : sep ∉ y)
    (h : a ++ sep :: x = b ++ sep :: y) : a = b ∧ x = y := by
  induction a generalizing b with
  | nil =>
    cases b with
    | nil => exact ⟨rfl, (List.cons.inj h).2⟩
    | cons c b =>
      have htail := (List.cons.inj h).2
      exact absurd (htail ▸ by simp : sep ∈ x) hx
  | cons c a ih =>
    cases b with
    | nil =>
      have htail := (List.cons.inj h).2
      exact absurd (htail ▸ by simp : sep ∈ y) hy
    | cons d b =>
      obtain ⟨rfl, htail⟩ := List.cons.inj h
      obtain ⟨rfl, rfl⟩ := ih htail
      exact ⟨rfl, rfl⟩

theorem split_first {sep : Char} {a b x y : List Char} (ha : sep ∉ a) (hb : sep ∉ b)
    (h : a ++ sep :: x = b ++ sep :: y) : a = b ∧ x = y := by
  have hreverse : x.reverse ++ sep :: a.reverse = y.reverse ++ sep :: b.reverse := by
    simpa using congrArg List.reverse h
  obtain ⟨hxy, hab⟩ := split_last (mt List.mem_reverse.mp ha) (mt List.mem_reverse.mp hb) hreverse
  exact ⟨List.reverse_inj.mp hab, List.reverse_inj.mp hxy⟩

theorem intercalate_injective {sep : Char} {a b : String} {xs ys : List String}
    (hx : ∀ x ∈ xs, sep ∉ x.toList) (hy : ∀ y ∈ ys, sep ∉ y.toList) (hlength : xs.length = ys.length)
    (h : (String.singleton sep).intercalate (a :: xs) =
      (String.singleton sep).intercalate (b :: ys)) : a = b ∧ xs = ys := by
  induction xs using List.reverseRecOn generalizing ys with
  | nil =>
    obtain rfl : ys = [] := List.length_eq_zero_iff.mp hlength.symm
    rw [String.intercalate_singleton, String.intercalate_singleton] at h
    exact ⟨h, rfl⟩
  | append_singleton xs x ih =>
    rcases List.eq_nil_or_concat ys with rfl | ⟨ys, y, rfl⟩
    · simp at hlength
    · rw [List.concat_eq_append] at hy hlength h ⊢
      rw [← List.cons_append, ← List.cons_append,
        String.intercalate_append_of_ne_nil (by simp) (by simp),
        String.intercalate_append_of_ne_nil (by simp) (by simp), String.intercalate_singleton,
        String.intercalate_singleton] at h
      have hlist := congrArg String.toList h
      simp only [String.toList_append, String.toList_singleton, List.append_assoc,
        List.singleton_append] at hlist
      obtain ⟨hfront, hlast⟩ := split_last (hx x (by simp)) (hy y (by simp)) hlist
      obtain ⟨rfl, rfl⟩ := ih (fun z hz => hx z (by simp [hz])) (fun z hz => hy z (by simp [hz]))
        (by simpa using hlength) (String.toList_inj.mp hfront)
      rw [String.toList_inj.mp hlast]
      exact ⟨rfl, rfl⟩

theorem append_number {a b : String} {x y : ℤ}
    (h : a ++ ":" ++ toString x = b ++ ":" ++ toString y) : a = b ∧ x = y := by
  have hlist := congrArg String.toList h
  simp only [String.toList_append, List.append_assoc] at hlist
  obtain ⟨hab, hxy⟩ := split_last (not_mem_toString (by decide) (by decide) x)
    (not_mem_toString (by decide) (by decide) y) hlist
  exact ⟨String.toList_inj.mp hab, toString_injective (String.toList_inj.mp hxy)⟩

theorem append_inj_of_length {s t : String} {xs ys : List Char}
    (h : s.toList ++ xs = t.toList ++ ys) (hlength : s.length = t.length) : s = t ∧ xs = ys := by
  rw [← String.length_toList, ← String.length_toList] at hlength
  obtain ⟨hst, hxy⟩ := List.append_inj h hlength
  exact ⟨String.toList_inj.mp hst, hxy⟩

end KeyText

end OpenBridge.Foundation
