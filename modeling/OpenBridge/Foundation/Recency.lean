import Mathlib.Data.List.Induction

/-!
# Foundation: the most recent distinct keys

A bounded history: a new entry takes the place of the older entry with its key, and the oldest
entries beyond the bound are dropped.
-/

namespace OpenBridge.Foundation

universe u v w

namespace Recency

variable {α : Type u} {κ : Type v} [DecidableEq κ] (key : α → κ) (n : ℕ)

/-- The last `n` elements. -/
def lastN (l : List α) : List α := l.drop (l.length - n)

/-- Put an entry into a history of at most `n` entries, the oldest first. -/
def touch (l : List α) (a : α) : List α :=
  lastN n (l.filter (fun x => key x ≠ key a) ++ [a])

/-- The history of a sequence given newest first: the latest entry of each of the `n` keys used last
that are not excluded. -/
def recent : ℕ → List κ → List α → List α
  | 0, _, _ => []
  | _ + 1, _, [] => []
  | n + 1, excluded, a :: older =>
      if key a ∈ excluded then recent (n + 1) excluded older
      else recent n (key a :: excluded) older ++ [a]

variable {key} {n} {m : ℕ} {l : List α} {excluded excluded' : List κ} {a : α}

@[simp] theorem recent_zero : recent key 0 excluded l = [] := by
  cases l <;> rfl

@[simp] theorem recent_nil : recent key n excluded ([] : List α) = [] := by
  cases n <;> rfl

theorem recent_cons : recent key (n + 1) excluded (a :: l) =
    if key a ∈ excluded then recent key (n + 1) excluded l
    else recent key n (key a :: excluded) l ++ [a] := rfl

theorem length_recent_le : (recent key n excluded l).length ≤ n := by
  induction l generalizing n excluded with
  | nil => simp
  | cons a older ih =>
    cases n with
    | zero => simp
    | succ n =>
      simp only [recent_cons]
      split
      · exact ih
      · simp only [List.length_append, List.length_singleton]
        have := @ih n (key a :: excluded)
        omega

theorem recent_congr (h : ∀ k, k ∈ excluded ↔ k ∈ excluded') :
    recent key n excluded l = recent key n excluded' l := by
  induction l generalizing n excluded excluded' with
  | nil => cases n <;> rfl
  | cons a older ih =>
    cases n with
    | zero => simp
    | succ n =>
      simp only [recent_cons, h (key a)]
      split
      · exact ih h
      · refine congrArg (· ++ [a]) (ih fun k => ?_)
        simp only [List.mem_cons, h k]

theorem not_mem_excluded_of_mem (h : a ∈ recent key n excluded l) : key a ∉ excluded := by
  induction l generalizing n excluded with
  | nil => simp at h
  | cons b older ih =>
    cases n with
    | zero => simp at h
    | succ n =>
      simp only [recent_cons] at h
      split at h
      · exact ih h
      · rename_i hb
        rcases List.mem_append.mp h with h | h
        · exact fun hm => ih h (List.mem_cons_of_mem _ hm)
        · rw [List.mem_singleton.mp h]
          exact hb

theorem mem_of_mem_recent (h : a ∈ recent key n excluded l) : a ∈ l := by
  induction l generalizing n excluded with
  | nil => simp at h
  | cons b older ih =>
    cases n with
    | zero => simp at h
    | succ n =>
      simp only [recent_cons] at h
      split at h
      · exact List.mem_cons_of_mem _ (ih h)
      · rcases List.mem_append.mp h with h | h
        · exact List.mem_cons_of_mem _ (ih h)
        · simp [List.mem_singleton.mp h]

theorem lastN_of_length_le (h : l.length ≤ n) : lastN n l = l := by
  simp [lastN, Nat.sub_eq_zero_of_le h]

theorem lastN_succ_concat (n : ℕ) (l : List α) (a : α) :
    lastN (n + 1) (l ++ [a]) = lastN n l ++ [a] := by
  simp only [lastN, List.length_append, List.length_singleton]
  rw [Nat.add_sub_add_right, List.drop_append_of_le_length (Nat.sub_le _ _)]

theorem lastN_zero (l : List α) : lastN 0 l = [] := by
  simp [lastN]

theorem lastN_filter_recent (k : κ) :
    lastN n ((recent key (n + 1) excluded l).filter fun x => key x ≠ k) =
      recent key n (k :: excluded) l := by
  induction l generalizing n excluded with
  | nil => simp [lastN]
  | cons a older ih =>
    simp only [recent_cons]
    by_cases ha : key a ∈ excluded
    · rw [if_pos ha, ih]
      cases n with
      | zero => simp
      | succ n => simp [recent_cons, ha]
    · rw [if_neg ha, List.filter_append]
      by_cases hk : key a = k
      · -- the newest entry goes, and no older one has its key
        have hall : (recent key n (key a :: excluded) older).filter (fun x => key x ≠ k) =
            recent key n (key a :: excluded) older := by
          rw [List.filter_eq_self]
          intro x hx
          have := not_mem_excluded_of_mem hx
          simp only [List.mem_cons, not_or] at this
          simpa [← hk] using this.1
        have hnil : [a].filter (fun x => key x ≠ k) = [] := by simp [hk]
        rw [hall, hnil, List.append_nil, lastN_of_length_le length_recent_le]
        cases n with
        | zero => simp
        | succ n =>
          simp only [recent_cons, ← hk, List.mem_cons, true_or, if_true]
      · have hone : [a].filter (fun x => key x ≠ k) = [a] := by simp [hk]
        rw [hone]
        cases n with
        | zero => simp [lastN_zero]
        | succ n =>
          have hmem : key a ∉ k :: excluded := by simp [hk, ha]
          rw [lastN_succ_concat, ih, recent_cons, if_neg hmem]
          refine congrArg (· ++ [a]) (recent_congr fun x => ?_)
          simp only [List.mem_cons]
          exact or_left_comm

theorem touch_recent :
    touch key (n + 1) (recent key (n + 1) [] l) a = recent key (n + 1) [] (a :: l) := by
  rw [touch, lastN_succ_concat, lastN_filter_recent]
  simp [recent_cons]

theorem foldl_touch (l : List α) :
    l.foldl (touch key (n + 1)) [] = recent key (n + 1) [] l.reverse := by
  induction l using List.reverseRecOn with
  | nil => rfl
  | append_singleton l a ih =>
    rw [List.foldl_append, List.foldl_cons, List.foldl_nil, ih, touch_recent, List.reverse_concat]

theorem recent_sublist {k : List α} (hsub : k.Sublist l) (hnodup : l.Nodup)
    (h : ∀ x ∈ recent key n excluded l, x ∈ k) :
    recent key n excluded k = recent key n excluded l := by
  induction l generalizing n excluded k with
  | nil => rw [List.sublist_nil.mp hsub]
  | cons a older ih =>
    cases n with
    | zero => simp
    | succ n =>
      obtain ⟨ha, hnodup⟩ := List.nodup_cons.mp hnodup
      by_cases hskip : key a ∈ excluded
      · have hl : recent key (n + 1) excluded (a :: older) = recent key (n + 1) excluded older := by
          simp [recent_cons, hskip]
        rw [hl] at h ⊢
        rcases List.sublist_cons_iff.mp hsub with hsub | ⟨k', rfl, hsub'⟩
        · exact ih hsub hnodup h
        · rw [recent_cons, if_pos hskip]
          refine ih hsub' hnodup fun x hx => (List.mem_cons.mp (h x hx)).resolve_left ?_
          rintro rfl
          exact not_mem_excluded_of_mem hx hskip
      · have hl : recent key (n + 1) excluded (a :: older) =
            recent key n (key a :: excluded) older ++ [a] := by
          simp [recent_cons, hskip]
        rw [hl] at h ⊢
        rcases List.sublist_cons_iff.mp hsub with hsub | ⟨k', rfl, hsub'⟩
        · exact absurd (hsub.subset (h a (by simp))) ha
        · rw [recent_cons, if_neg hskip]
          refine congrArg (· ++ [a]) (ih hsub' hnodup fun x hx => ?_)
          refine (List.mem_cons.mp (h x (List.mem_append_left _ hx))).resolve_left ?_
          rintro rfl
          exact not_mem_excluded_of_mem hx (by simp)

theorem mem_recent_head : a ∈ recent key (n + 1) [] (a :: l) := by
  simp [recent_cons]

theorem recent_eq_take (hnodup : ((l.take n).map key).Nodup)
    (hfresh : ∀ a ∈ l.take n, key a ∉ excluded) :
    recent key n excluded l = (l.take n).reverse := by
  induction l generalizing n excluded with
  | nil => simp
  | cons a older ih =>
    cases n with
    | zero => simp
    | succ n =>
      rw [List.take_succ_cons] at hnodup hfresh ⊢
      rw [List.map_cons, List.nodup_cons] at hnodup
      rw [recent_cons, if_neg (hfresh a List.mem_cons_self), List.reverse_cons]
      refine congrArg (· ++ [a]) (ih hnodup.2 fun b hb hmem => ?_)
      rcases List.mem_cons.mp hmem with heq | hmem
      · exact hnodup.1 (List.mem_map.mpr ⟨b, hb, heq⟩)
      · exact hfresh b (List.mem_cons_of_mem _ hb) hmem

section Map

variable {β : Type w} {key' : β → κ} {f : α → β}

theorem touch_map (hf : ∀ x, key' (f x) = key x) :
    (touch key n l a).map f = touch key' n (l.map f) (f a) := by
  have hfilter : (l.map f).filter (fun y => key' y ≠ key' (f a)) =
      (l.filter fun x => key x ≠ key a).map f := by
    rw [List.filter_map]
    congr 1
    refine List.filter_congr fun x _ => ?_
    simp [hf]
  rw [touch, touch, hfilter, lastN, lastN, List.map_drop, List.map_append, List.map_singleton]
  simp only [List.length_append, List.length_map, List.length_singleton]

theorem recent_map (hf : ∀ x, key' (f x) = key x) :
    recent key' n excluded (l.map f) = (recent key n excluded l).map f := by
  induction l generalizing n excluded with
  | nil => cases n <;> rfl
  | cons a older ih =>
    cases n with
    | zero => simp
    | succ n =>
      simp only [List.map_cons, recent_cons, hf a]
      split
      · exact ih
      · rw [ih, List.map_append, List.map_singleton]

end Map

end Recency

end OpenBridge.Foundation
