import Mathlib.Data.List.Induction
import Mathlib.Order.MinMax

/-!
# Foundation: effective dating

A list of versions, each in force from a time on, and the version that governs at a time: the newest
in force, and of two versions with one time the later listed.
-/

namespace OpenBridge.Foundation

universe u v w

namespace EffectiveDating

variable {α : Type u} {τ : Type v} [LinearOrder τ] (time : α → τ)

def newer (t : τ) (best : Option α) (a : α) : Option α :=
  if t < time a then best else if best.all fun b => time b ≤ time a then some a else best

def latest (t : τ) (l : List α) : Option α := l.foldl (newer time t) none

/-- The first time after `t` at which a version takes effect, or the bound. -/
def next (t : τ) (l : List α) (bound : τ) : τ :=
  l.foldl (fun v a => if t < time a then min v (time a) else v) bound

variable {time} {t t' : τ} {k l : List α} {a : α}

@[simp] theorem latest_nil : latest time t [] = none := rfl

theorem latest_concat : latest time t (l ++ [a]) = newer time t (latest time t l) a := by
  simp [latest]

theorem latest_concat_of_lt (h : t < time a) : latest time t (l ++ [a]) = latest time t l := by
  rw [latest_concat, newer, if_pos h]

theorem latest_eq_none_iff : latest time t l = none ↔ ∀ x ∈ l, t < time x := by
  induction l using List.reverseRecOn with
  | nil => simp
  | append_singleton l b ih =>
    rw [latest_concat, newer]
    by_cases hb : t < time b
    · rw [if_pos hb, ih]
      constructor
      · intro h x hx
        rcases List.mem_append.mp hx with hx | hx
        · exact h x hx
        · rw [List.mem_singleton.mp hx]
          exact hb
      · exact fun h x hx => h x (List.mem_append_left _ hx)
    · rw [if_neg hb]
      constructor
      · intro h
        split at h
        · cases h
        · rename_i hbest
          rw [h] at hbest
          exact absurd rfl hbest
      · exact fun h => absurd (h b (by simp)) hb

theorem latest_eq_some_iff : latest time t l = some a ↔
    ∃ pre post, l = pre ++ a :: post ∧ time a ≤ t ∧ (∀ x ∈ pre, time x ≤ t → time x ≤ time a) ∧
      ∀ x ∈ post, time x ≤ t → time x < time a := by
  induction l using List.reverseRecOn generalizing a with
  | nil => simp
  | append_singleton l b ih =>
    rw [latest_concat, newer]
    constructor
    · intro h
      -- either the governing version of the shorter list stays, or the last version replaces it
      have hstays : latest time t l = some a → (time b ≤ t → time b < time a) →
          ∃ pre post, l ++ [b] = pre ++ a :: post ∧ time a ≤ t ∧
            (∀ x ∈ pre, time x ≤ t → time x ≤ time a) ∧
            ∀ x ∈ post, time x ≤ t → time x < time a := by
        intro ha hlt
        obtain ⟨pre, post, rfl, hle, hpre, hpost⟩ := ih.mp ha
        refine ⟨pre, post ++ [b], by simp, hle, hpre, fun x hx => ?_⟩
        rcases List.mem_append.mp hx with hx | hx
        · exact hpost x hx
        · rw [List.mem_singleton.mp hx]
          exact hlt
      split at h
      · rename_i hb
        exact hstays h fun hle => absurd hle (not_le.mpr hb)
      · rename_i hb
        split at h
        · rename_i hall
          obtain rfl : b = a := Option.some.inj h
          refine ⟨l, [], rfl, not_lt.mp hb, fun x hx hxt => ?_, by simp⟩
          cases hl : latest time t l with
          | none => exact absurd hxt (not_le.mpr (latest_eq_none_iff.mp hl x hx))
          | some g =>
            obtain ⟨pre, post, hlist, hg, hpre, hpost⟩ := ih.mp hl
            rw [hl] at hall
            have hgb : time g ≤ time b := by simpa using hall
            rw [hlist] at hx
            rcases List.mem_append.mp hx with hx | hx
            · exact le_trans (hpre x hx hxt) hgb
            · rcases List.mem_cons.mp hx with rfl | hx
              · exact hgb
              · exact le_trans (le_of_lt (hpost x hx hxt)) hgb
        · rename_i hall
          refine hstays h fun _ => ?_
          rw [h] at hall
          simpa using hall
    · rintro ⟨pre, post, hlist, hle, hpre, hpost⟩
      rcases List.eq_nil_or_concat post with rfl | ⟨post, c, rfl⟩
      · obtain ⟨rfl, heq⟩ := List.append_inj' hlist rfl
        obtain rfl : b = a := by simpa using heq
        rw [if_neg (not_lt.mpr hle), if_pos]
        cases hl : latest time t l with
        | none => rfl
        | some g =>
          obtain ⟨pre', post', rfl, hg, -, -⟩ := ih.mp hl
          simpa using hpre g (by simp) hg
      · have hsplit : l ++ [b] = (pre ++ a :: post) ++ [c] := by simpa using hlist
        obtain ⟨rfl, heq⟩ := List.append_inj' hsplit rfl
        obtain rfl : b = c := by simpa using heq
        have ha : latest time t (pre ++ a :: post) = some a :=
          ih.mpr ⟨pre, post, rfl, hle, hpre, fun x hx => hpost x (by simp [hx])⟩
        rw [ha]
        split
        · rfl
        · rename_i hb
          have hlt := hpost b (by simp) (not_lt.mp hb)
          rw [if_neg]
          simpa using hlt

theorem latest_mem (h : latest time t l = some a) : a ∈ l ∧ time a ≤ t := by
  obtain ⟨pre, post, rfl, hle, -, -⟩ := latest_eq_some_iff.mp h
  exact ⟨by simp, hle⟩

theorem latest_map {β : Type w} {time' : β → τ} {f : α → β} (hf : ∀ x, time' (f x) = time x) :
    latest time' t (l.map f) = (latest time t l).map f := by
  induction l using List.reverseRecOn with
  | nil => rfl
  | append_singleton l b ih =>
    rw [List.map_append, List.map_singleton, latest_concat, latest_concat, ih]
    simp only [newer, hf]
    cases latest time t l with
    | none => by_cases hb : t < time b <;> simp [hb]
    | some g => by_cases hb : t < time b <;> by_cases hg : time g ≤ time b <;> simp [hb, hg, hf]

theorem latest_congr (h : ∀ x ∈ l, time x ≤ t ↔ time x ≤ t') :
    latest time t l = latest time t' l := by
  induction l using List.reverseRecOn with
  | nil => rfl
  | append_singleton l b ih =>
    have hb : t < time b ↔ t' < time b := by
      rw [← not_le, ← not_le, not_iff_not]
      exact h b (by simp)
    rw [latest_concat, latest_concat, ih fun x hx => h x (by simp [hx])]
    simp only [newer, hb]

theorem latest_of_le (h : latest time t' l = some a) (ha : time a ≤ t) (ht : t ≤ t') :
    latest time t l = some a := by
  rw [← h]
  refine latest_congr fun x hx => ⟨fun hxt => le_trans hxt ht, fun hxt => ?_⟩
  obtain ⟨pre, post, rfl, -, hpre, hpost⟩ := latest_eq_some_iff.mp h
  rcases List.mem_append.mp hx with hx | hx
  · exact le_trans (hpre x hx hxt) ha
  · rcases List.mem_cons.mp hx with rfl | hx
    · exact ha
    · exact le_trans (le_of_lt (hpost x hx hxt)) ha

theorem latest_none_of_le (h : latest time t' l = none) (ht : t ≤ t') : latest time t l = none :=
  latest_eq_none_iff.mpr fun x hx => lt_of_le_of_lt ht (latest_eq_none_iff.mp h x hx)

theorem le_next_iff {bound v : τ} :
    v ≤ next time t l bound ↔ v ≤ bound ∧ ∀ x ∈ l, t < time x → v ≤ time x := by
  induction l generalizing bound with
  | nil => simp [next]
  | cons b rest ih =>
    have hstep : next time t (b :: rest) bound =
        next time t rest (if t < time b then min bound (time b) else bound) := rfl
    rw [hstep, ih]
    split
    · rename_i hb
      simp only [le_min_iff, List.mem_cons, forall_eq_or_imp, hb, true_implies, and_assoc]
    · rename_i hb
      simp only [List.mem_cons, forall_eq_or_imp, hb, false_implies, true_and]

/-! ## Removing versions -/

section Removal

variable [DecidableEq α]

def listedAfter (a : α) (l : List α) : List α := (l.dropWhile fun x => x ≠ a).tail

theorem listedAfter_eq {pre post : List α} (h : a ∉ pre) :
    listedAfter a (pre ++ a :: post) = post := by
  have hpre : ∀ x ∈ pre, decide (x ≠ a) = true := by
    intro x hx
    simp only [ne_eq, decide_not, Bool.not_eq_true', decide_eq_false_iff_not]
    rintro rfl
    exact h hx
  rw [listedAfter, List.dropWhile_append_of_pos hpre]
  simp

variable (time) in
def Shadowed (l : List α) (a : α) : Prop := ∃ y ∈ listedAfter a l, time y = time a

instance [DecidableEq τ] (l : List α) (a : α) : Decidable (Shadowed time l a) :=
  inferInstanceAs (Decidable (∃ y ∈ listedAfter a l, time y = time a))

theorem latest_sublist (hnodup : l.Nodup) (hsub : k.Sublist l)
    (h : ∀ r ∈ l, r ∉ k → time r ≤ t → Shadowed time l r) : latest time t k = latest time t l := by
  cases hl : latest time t l with
  | none =>
    exact latest_eq_none_iff.mpr fun x hx => latest_eq_none_iff.mp hl x (hsub.subset hx)
  | some g =>
    obtain ⟨pre, post, rfl, hle, hpre, hpost⟩ := latest_eq_some_iff.mp hl
    obtain ⟨hnpre, hnpost, hdisj⟩ := List.nodup_append.mp hnodup
    have hgpre : g ∉ pre := fun hg => hdisj g hg g (by simp) rfl
    -- the governing version is not shadowed, so it is kept
    have hgk : g ∈ k := by
      by_contra hg
      obtain ⟨y, hy, heq⟩ := h g (by simp) hg hle
      rw [listedAfter_eq hgpre] at hy
      have := hpost y hy (heq ▸ hle)
      exact absurd this (by simp [heq])
    obtain ⟨k₁, k₂, rfl, hk₁, hk₂⟩ := List.sublist_append_iff.mp hsub
    have hg₂ : g ∈ k₂ := (List.mem_append.mp hgk).resolve_left fun hg => hgpre (hk₁.subset hg)
    rcases List.sublist_cons_iff.mp hk₂ with hk₂ | ⟨k₂', rfl, hk₂'⟩
    · exact absurd (hk₂.subset hg₂) (List.nodup_cons.mp hnpost).1
    · exact latest_eq_some_iff.mpr ⟨k₁, k₂', rfl, hle, fun x hx => hpre x (hk₁.subset hx),
        fun x hx => hpost x (hk₂'.subset hx)⟩

theorem latest_self (ha : a ∈ l) (hnodup : l.Nodup) (h : ¬ Shadowed time l a) :
    latest time (time a) l = some a := by
  obtain ⟨pre, post, rfl⟩ := List.append_of_mem ha
  obtain ⟨-, -, hdisj⟩ := List.nodup_append.mp hnodup
  have hapre : a ∉ pre := fun hg => hdisj a hg a (by simp) rfl
  refine latest_eq_some_iff.mpr ⟨pre, post, rfl, le_refl _, fun _ _ hx => hx, fun x hx hxt => ?_⟩
  refine lt_of_le_of_ne hxt fun heq => h ⟨x, ?_, heq⟩
  rw [listedAfter_eq hapre]
  exact hx

end Removal

end EffectiveDating

end OpenBridge.Foundation
