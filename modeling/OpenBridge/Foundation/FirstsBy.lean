import Mathlib.Data.List.Basic
import Mathlib.Data.List.Induction
import Mathlib.Order.Lattice

/-!
# Foundation: the first element of every key

A pass over a list that keeps an element when its key has not been seen.
-/

namespace OpenBridge.Foundation

universe u v

variable {α : Type u} {κ : Type v} [DecidableEq κ] (key : α → κ)

def firstsFrom (seen : List κ) : List α → List α
  | [] => []
  | x :: xs => if key x ∈ seen then firstsFrom seen xs else x :: firstsFrom (key x :: seen) xs

def firstsBy (xs : List α) : List α := firstsFrom key [] xs

variable {key} {seen : List κ} {xs : List α} {x : α}

@[simp] theorem firstsFrom_nil : firstsFrom key seen [] = [] := rfl

theorem firstsFrom_cons : firstsFrom key seen (x :: xs) =
    if key x ∈ seen then firstsFrom key seen xs else x :: firstsFrom key (key x :: seen) xs := rfl

theorem mem_of_mem_firstsFrom (h : x ∈ firstsFrom key seen xs) : x ∈ xs := by
  induction xs generalizing seen with
  | nil => exact h
  | cons y ys ih =>
    rw [firstsFrom_cons] at h
    split at h
    · exact List.mem_cons_of_mem _ (ih h)
    · rcases List.mem_cons.mp h with rfl | h
      · exact List.mem_cons_self
      · exact List.mem_cons_of_mem _ (ih h)

theorem mem_map_firstsFrom {k : κ} :
    k ∈ (firstsFrom key seen xs).map key ↔ k ∈ xs.map key ∧ k ∉ seen := by
  induction xs generalizing seen with
  | nil => simp
  | cons y ys ih =>
    rw [firstsFrom_cons]
    split
    · rename_i hy
      rw [ih, List.map_cons, List.mem_cons]
      constructor
      · exact fun h => ⟨.inr h.1, h.2⟩
      · rintro ⟨rfl | h, hk⟩
        · exact absurd hy hk
        · exact ⟨h, hk⟩
    · rename_i hy
      rw [List.map_cons, List.mem_cons, ih, List.map_cons, List.mem_cons, List.mem_cons]
      constructor
      · rintro (rfl | ⟨h, hk⟩)
        · exact ⟨.inl rfl, hy⟩
        · exact ⟨.inr h, fun hmem => hk (.inr hmem)⟩
      · rintro ⟨rfl | h, hk⟩
        · exact .inl rfl
        · rcases eq_or_ne k (key y) with rfl | hne
          · exact .inl rfl
          · exact .inr ⟨h, fun hmem => hmem.elim hne hk⟩

theorem firstsFrom_congr (seen seen' : List κ) (h : ∀ y ∈ xs, key y ∈ seen ↔ key y ∈ seen') :
    firstsFrom key seen xs = firstsFrom key seen' xs := by
  induction xs generalizing seen seen' with
  | nil => rfl
  | cons y ys ih =>
    have hys : ∀ z ∈ ys, key z ∈ seen ↔ key z ∈ seen' := fun z hz => h z (List.mem_cons_of_mem _ hz)
    rw [firstsFrom_cons, firstsFrom_cons, ih seen seen' hys,
      ih (key y :: seen) (key y :: seen') fun z hz => by
        rw [List.mem_cons, List.mem_cons, hys z hz]]
    simp only [h y List.mem_cons_self]

theorem filter_firstsFrom (p : κ → Bool) :
    (firstsFrom key seen xs).filter (fun x => p (key x)) =
      firstsFrom key seen (xs.filter fun x => p (key x)) := by
  induction xs generalizing seen with
  | nil => rfl
  | cons y ys ih =>
    rw [firstsFrom_cons, List.filter_cons]
    split
    · rename_i hy
      rw [ih]
      split
      · rw [firstsFrom_cons, if_pos hy]
      · rfl
    · rename_i hy
      rw [List.filter_cons]
      split
      · rw [firstsFrom_cons, if_neg hy, ih]
      · rename_i hp
        rw [ih]
        refine firstsFrom_congr _ _ fun z hz => ?_
        have hz : p (key z) = true := (List.mem_filter.mp hz).2
        rw [List.mem_cons, or_iff_right]
        rintro heq
        rw [heq] at hz
        exact hp hz

theorem filter_firstsBy (p : κ → Bool) (xs : List α) :
    (firstsBy key xs).filter (fun x => p (key x)) = firstsBy key (xs.filter fun x => p (key x)) :=
  filter_firstsFrom p

theorem firstsFrom_append (xs ys : List α) :
    firstsFrom key seen (xs ++ ys) =
      firstsFrom key seen xs ++ firstsFrom key (xs.map key ++ seen) ys := by
  induction xs generalizing seen with
  | nil => rfl
  | cons x xs ih =>
    rw [List.cons_append, firstsFrom_cons, firstsFrom_cons]
    split
    · rename_i hx
      rw [ih]
      congr 1
      refine firstsFrom_congr _ _ fun z _ => ?_
      simp only [List.mem_append, List.map_cons, List.cons_append, List.mem_cons]
      constructor
      · exact fun h => .inr h
      · rintro (heq | h)
        · exact .inr (heq ▸ hx)
        · exact h
    · rw [ih, List.cons_append]
      congr 2
      refine firstsFrom_congr _ _ fun z _ => ?_
      simp only [List.mem_append, List.map_cons, List.cons_append, List.mem_cons]
      exact or_left_comm

theorem firstsFrom_eq_self (hseen : ∀ x ∈ xs, key x ∉ seen) (h : (xs.map key).Nodup) :
    firstsFrom key seen xs = xs := by
  induction xs generalizing seen with
  | nil => rfl
  | cons x xs ih =>
    rw [List.map_cons, List.nodup_cons] at h
    rw [firstsFrom_cons, if_neg (hseen x List.mem_cons_self), ih _ h.2]
    intro y hy hmem
    rcases List.mem_cons.mp hmem with heq | hmem
    · exact h.1 (heq ▸ List.mem_map_of_mem hy)
    · exact hseen y (List.mem_cons_of_mem _ hy) hmem

theorem nodup_map_firstsFrom : ((firstsFrom key seen xs).map key).Nodup := by
  induction xs generalizing seen with
  | nil => exact List.nodup_nil
  | cons x xs ih =>
    rw [firstsFrom_cons]
    split
    · exact ih
    · rw [List.map_cons, List.nodup_cons]
      exact ⟨fun h => (mem_map_firstsFrom.mp h).2 List.mem_cons_self, ih⟩

theorem nodup_map_firstsBy (xs : List α) : ((firstsBy key xs).map key).Nodup :=
  nodup_map_firstsFrom

@[simp] theorem firstsBy_firstsBy (xs : List α) : firstsBy key (firstsBy key xs) = firstsBy key xs :=
  firstsFrom_eq_self (fun _ _ => List.not_mem_nil) nodup_map_firstsFrom

theorem firstsBy_append (xs ys : List α) :
    firstsBy key (xs ++ ys) = firstsBy key xs ++ firstsFrom key (xs.map key) ys := by
  rw [firstsBy, firstsFrom_append, List.append_nil, firstsBy]

theorem firstsBy_append_congr {xs xs' : List α} (h : firstsBy key xs = firstsBy key xs')
    (ys : List α) : firstsBy key (xs ++ ys) = firstsBy key (xs' ++ ys) := by
  rw [firstsBy_append, firstsBy_append, h]
  congr 1
  refine firstsFrom_congr _ _ fun y _ => ?_
  have hkeys : ∀ l : List α, key y ∈ (firstsBy key l).map key ↔ key y ∈ l.map key := fun l => by
    rw [firstsBy, mem_map_firstsFrom]
    exact and_iff_left List.not_mem_nil
  rw [← hkeys xs, ← hkeys xs', h]

/-!
# Foundation: a register that keeps the greatest value

A register takes a value when it weighs no less than the one it holds.
-/

namespace KeepGreatest

variable {α ω : Type*} [LinearOrder ω] (weight : α → ω)

def put (a : α) (held : Option α) : Option α :=
  match held with
  | none => some a
  | some b => if weight b ≤ weight a then some a else some b

def kept (l : List α) : Option α := l.foldl (fun held a => put weight a held) none

def Greatest (l : List α) (a : α) : Prop := a ∈ l ∧ ∀ b ∈ l, weight b ≤ weight a

@[simp] theorem kept_nil : kept weight ([] : List α) = none := rfl

@[simp] theorem kept_concat (l : List α) (a : α) :
    kept weight (l ++ [a]) = put weight a (kept weight l) := by
  unfold kept
  rw [List.foldl_append]
  rfl

theorem exists_kept {l : List α} {a : α} (h : a ∈ l) : ∃ b, kept weight l = some b := by
  rcases List.eq_nil_or_concat l with rfl | ⟨front, c, rfl⟩
  · cases h
  · rw [List.concat_eq_append, kept_concat]
    unfold put
    split
    · exact ⟨_, rfl⟩
    · split <;> exact ⟨_, rfl⟩

variable {weight}

theorem eq_nil_of_kept {l : List α} (h : kept weight l = none) : l = [] := by
  rw [List.eq_nil_iff_forall_not_mem]
  intro a ha
  obtain ⟨b, hb⟩ := exists_kept weight ha
  rw [h] at hb
  cases hb

theorem greatest_of_kept {l : List α} {a : α} (h : kept weight l = some a) :
    Greatest weight l a := by
  induction l using List.reverseRecOn generalizing a with
  | nil => cases h
  | append_singleton l b ih =>
    rw [kept_concat] at h
    unfold put at h
    cases hl : kept weight l with
    | none =>
      rw [hl] at h
      obtain rfl := Option.some.inj h
      obtain rfl := eq_nil_of_kept hl
      exact ⟨List.mem_singleton_self b, fun c hc => (List.mem_singleton.mp hc ▸ le_rfl)⟩
    | some c =>
      have hc := ih hl
      rw [hl] at h
      dsimp only at h
      split at h
      · rename_i hle
        obtain rfl := Option.some.inj h
        refine ⟨by simp, fun d hd => ?_⟩
        rcases List.mem_append.mp hd with hd | hd
        · exact (hc.2 d hd).trans hle
        · rw [List.mem_singleton.mp hd]
      · rename_i hlt
        obtain rfl := Option.some.inj h
        refine ⟨List.mem_append_left _ hc.1, fun d hd => ?_⟩
        rcases List.mem_append.mp hd with hd | hd
        · exact hc.2 d hd
        · rw [List.mem_singleton.mp hd]
          exact (not_le.mp hlt).le

theorem kept_concat_of_greatest {l : List α} {a : α} (h : ∀ b ∈ l, weight b ≤ weight a) :
    kept weight (l ++ [a]) = some a := by
  rw [kept_concat]
  unfold put
  cases hl : kept weight l with
  | none => rfl
  | some b => exact if_pos (h b (greatest_of_kept hl).1)

theorem Greatest.congr {l l' : List α} (h : ∀ a, a ∈ l' ↔ a ∈ l) {a : α}
    (ha : Greatest weight l a) : Greatest weight l' a :=
  ⟨(h a).mpr ha.1, fun b hb => ha.2 b ((h b).mp hb)⟩

theorem kept_congr_iff {l : List α} :
    (∀ l', (∀ a, a ∈ l' ↔ a ∈ l) → kept weight l' = kept weight l) ↔
      ∀ a b, Greatest weight l a → Greatest weight l b → a = b := by
  constructor
  · intro h a b ha hb
    have hmem : ∀ {c}, Greatest weight l c → ∀ d, d ∈ l ++ [c] ↔ d ∈ l := by
      intro c hc d
      rw [List.mem_append, List.mem_singleton]
      exact ⟨fun hd => hd.elim id fun heq => heq ▸ hc.1, .inl⟩
    have hlast := (h _ (hmem ha)).trans (h _ (hmem hb)).symm
    rw [kept_concat_of_greatest ha.2, kept_concat_of_greatest hb.2] at hlast
    exact Option.some.inj hlast
  · intro h l' hmem
    cases hl : kept weight l with
    | none =>
      obtain rfl := eq_nil_of_kept hl
      cases hl' : kept weight l' with
      | none => rfl
      | some b => exact absurd ((hmem b).mp (greatest_of_kept hl').1) List.not_mem_nil
    | some a =>
      have ha := greatest_of_kept hl
      obtain ⟨b, hb⟩ := exists_kept weight ((hmem a).mpr ha.1)
      rw [hb]
      exact congrArg some (h b a ((greatest_of_kept hb).congr fun c => (hmem c).symm) ha)

end KeepGreatest

end OpenBridge.Foundation
