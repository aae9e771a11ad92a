import Mathlib.Data.List.Chain
import Mathlib.Order.Lattice

/-!
# Foundation: the longest run at the start of a list

A loop that walks a list until an element fails a test, or lies too far from the one before, keeps the
longest first part of which neither happens.
-/

namespace OpenBridge.Foundation

universe u

variable {α : Type u} (ok : α → Bool) (near : α → α → Bool)

/-- The longest first part whose elements are `ok`, each near the one before it. -/
def leadingRun : Option α → List α → List α
  | _, [] => []
  | previous, x :: xs =>
      if ok x && previous.all (near · x) then x :: leadingRun (some x) xs else []

variable {previous : Option α} {xs run : List α} {x : α}

theorem leadingRun_cons : leadingRun ok near previous (x :: xs) =
    if ok x && previous.all (near · x) then x :: leadingRun ok near (some x) xs else [] := rfl

theorem leadingRun_prefix (previous : Option α) (xs : List α) :
    leadingRun ok near previous xs <+: xs := by
  induction xs generalizing previous with
  | nil => exact List.prefix_refl _
  | cons x xs ih =>
    rw [leadingRun_cons]
    split
    · exact (List.prefix_cons_inj x).mpr (ih (some x))
    · exact List.nil_prefix

variable {ok near} in
theorem ok_of_mem_leadingRun (h : x ∈ leadingRun ok near previous xs) : ok x = true := by
  induction xs generalizing previous with
  | nil => cases h
  | cons y ys ih =>
    rw [leadingRun_cons] at h
    split at h
    · rename_i htest
      rw [Bool.and_eq_true] at htest
      rcases List.mem_cons.mp h with rfl | h
      · exact htest.1
      · exact ih h
    · cases h

theorem isChain_leadingRun (previous : Option α) (xs : List α) :
    (previous.toList ++ leadingRun ok near previous xs).IsChain fun a b => near a b = true := by
  induction xs generalizing previous with
  | nil =>
    rw [leadingRun, List.append_nil]
    cases previous with
    | none => exact List.isChain_nil
    | some p => exact List.isChain_singleton p
  | cons x xs ih =>
    rw [leadingRun_cons]
    split
    · rename_i htest
      rw [Bool.and_eq_true] at htest
      cases previous with
      | none => exact ih (some x)
      | some p => exact List.isChain_cons_cons.mpr ⟨htest.2, ih (some x)⟩
    · rw [List.append_nil]
      cases previous with
      | none => exact List.isChain_nil
      | some p => exact List.isChain_singleton p

theorem prefix_leadingRun (hrun : run <+: xs) (hok : ∀ x ∈ run, ok x = true)
    (hnear : (previous.toList ++ run).IsChain fun a b => near a b = true) :
    run <+: leadingRun ok near previous xs := by
  induction run generalizing previous xs with
  | nil => exact List.nil_prefix
  | cons x run ih =>
    cases xs with
    | nil => exact absurd (List.prefix_nil.mp hrun) (List.cons_ne_nil x run)
    | cons y ys =>
      obtain ⟨rfl, htail⟩ := List.cons_prefix_cons.mp hrun
      have hfirst : previous.all (near · x) = true := by
        cases previous with
        | none => rfl
        | some p => exact (List.isChain_cons_cons.mp hnear).1
      have hrest : ((some x).toList ++ run).IsChain fun a b => near a b = true := by
        cases previous with
        | none => exact hnear
        | some p => exact (List.isChain_cons_cons.mp hnear).2
      rw [leadingRun, if_pos (by rw [hok x List.mem_cons_self, hfirst]; rfl)]
      exact (List.prefix_cons_inj x).mpr
        (ih htail (fun y hy => hok y (List.mem_cons_of_mem x hy)) hrest)

/-!
# Foundation: samples in the order of their times

A list of samples is spaced when their times strictly increase and no two neighbours lie further
apart than a gap.
-/

universe v

variable {α : Type u} {κ : Type v}

/-- The times strictly increase, and neighbours are at most `gap` apart. -/
def Spaced [LT κ] [LE κ] [Sub κ] (time : α → κ) (gap : κ) (l : List α) : Prop :=
  l.IsChain fun a b => time a < time b ∧ time b - time a ≤ gap

section Order

variable [LinearOrder κ] {time : α → κ} {l : List α}

theorem filter_from_suffix (lo : κ) (h : l.Pairwise fun a b => time a < time b) :
    l.filter (fun a => decide (lo ≤ time a)) <:+ l := by
  induction l with
  | nil => exact List.suffix_refl _
  | cons a rest ih =>
    obtain ⟨hhead, hrest⟩ := List.pairwise_cons.mp h
    rcases le_or_gt lo (time a) with hle | hlt
    · have hall : (a :: rest).filter (fun b => decide (lo ≤ time b)) = a :: rest :=
        List.filter_eq_self.mpr fun b hb => decide_eq_true <| by
          rcases List.mem_cons.mp hb with rfl | hb
          · exact hle
          · exact hle.trans (hhead b hb).le
      exact ⟨[], hall⟩
    · rw [List.filter_cons_of_neg (by simpa using hlt)]
      exact (ih hrest).trans (List.suffix_cons _ _)

theorem filter_upto_prefix (hi : κ) (h : l.Pairwise fun a b => time a < time b) :
    l.filter (fun a => decide (time a ≤ hi)) <+: l := by
  induction l with
  | nil => exact List.prefix_refl _
  | cons a rest ih =>
    obtain ⟨hhead, hrest⟩ := List.pairwise_cons.mp h
    rcases le_or_gt (time a) hi with hle | hlt
    · rw [List.filter_cons_of_pos (by simpa using hle)]
      exact List.prefix_cons_inj a |>.mpr (ih hrest)
    · have hnone : (a :: rest).filter (fun b => decide (time b ≤ hi)) = [] :=
        List.filter_eq_nil_iff.mpr fun b hb hle => by
          have hle : time b ≤ hi := of_decide_eq_true hle
          rcases List.mem_cons.mp hb with rfl | hb
          · exact absurd hle (not_le.mpr hlt)
          · exact absurd ((hhead b hb).trans_le hle) (not_lt.mpr hlt.le)
      rw [hnone]
      exact List.nil_prefix

theorem takeWhile_from_eq_filter (lo : κ) (h : l.Pairwise fun a b => time b < time a) :
    l.takeWhile (fun a => decide (lo ≤ time a)) = l.filter fun a => decide (lo ≤ time a) := by
  induction l with
  | nil => rfl
  | cons a rest ih =>
    obtain ⟨hhead, hrest⟩ := List.pairwise_cons.mp h
    rw [List.takeWhile_cons, List.filter_cons]
    split
    · rw [ih hrest]
    · rename_i hbefore
      rw [decide_eq_true_eq, not_le] at hbefore
      exact (List.filter_eq_nil_iff.mpr fun b hb hle =>
        absurd ((of_decide_eq_true hle).trans_lt (hhead b hb)) (not_lt.mpr hbefore.le)).symm

theorem le_of_mem_getLast? {a b : α} (h : l.Pairwise fun a b => time a < time b) (ha : a ∈ l)
    (hb : b ∈ l.getLast?) : time a ≤ time b := by
  obtain ⟨init, rfl⟩ := List.getLast?_eq_some_iff.mp hb
  rcases List.mem_append.mp ha with ha | ha
  · exact ((List.pairwise_append.mp h).2.2 a ha b (List.mem_singleton_self b)).le
  · rw [List.mem_singleton.mp ha]

theorem exists_last_upto {a : α} {hi : κ} (h : l.Pairwise fun a b => time a < time b) (ha : a ∈ l)
    (hle : time a ≤ hi) : ∃ older last rest, l = older ++ last :: rest ∧ time last ≤ hi ∧
      (∀ b ∈ rest, hi < time b) ∧ time a ≤ time last := by
  obtain ⟨rest, hsplit⟩ := filter_upto_prefix hi h
  have hmem : a ∈ l.filter fun b => decide (time b ≤ hi) :=
    List.mem_filter.mpr ⟨ha, decide_eq_true hle⟩
  obtain ⟨last, hlast⟩ := Option.ne_none_iff_exists'.mp
    (mt List.getLast?_eq_none_iff.mp (List.ne_nil_of_mem hmem))
  obtain ⟨older, hinit⟩ := List.getLast?_eq_some_iff.mp hlast
  refine ⟨older, last, rest, ?_, ?_, fun b hb => ?_, le_of_mem_getLast? (h.filter _) hmem hlast⟩
  · rw [← hsplit, hinit, List.append_assoc]
    rfl
  · exact of_decide_eq_true (List.mem_filter.mp (List.mem_of_mem_getLast? hlast)).2
  · refine not_le.mp fun hby => ?_
    have hrest := congrArg (List.filter fun b => decide (time b ≤ hi)) hsplit
    simp only [List.filter_append, List.filter_filter, Bool.and_self] at hrest
    exact List.filter_eq_nil_iff.mp (List.append_right_eq_self.mp hrest) b hb (decide_eq_true hby)

variable [Sub κ] {gap : κ}

theorem Spaced.pairwise (h : Spaced time gap l) : l.Pairwise fun a b => time a < time b := by
  have htrans : IsTrans α fun a b => time a < time b := ⟨fun _ _ _ => lt_trans⟩
  exact List.isChain_iff_pairwise.mp (h.imp fun _ _ hab => hab.1)

theorem Spaced.concat {x : α} (h : Spaced time gap l)
    (hlast : ∀ a ∈ l.getLast?, time a < time x ∧ time x - time a ≤ gap) :
    Spaced time gap (l ++ [x]) := by
  refine List.IsChain.append h (List.isChain_singleton x) fun a ha b hb => ?_
  rw [List.head?_cons, Option.mem_some_iff] at hb
  exact hb ▸ hlast a ha

theorem Spaced.suffix {l' : List α} (h : Spaced time gap l) (hl : l' <:+ l) : Spaced time gap l' :=
  List.IsChain.suffix h hl

theorem Spaced.window (lo hi : κ) (h : Spaced time gap l) :
    Spaced time gap (l.filter fun a => decide (lo ≤ time a ∧ time a ≤ hi)) := by
  have hfrom := filter_from_suffix lo h.pairwise
  have hupto := filter_upto_prefix hi (h.suffix hfrom).pairwise
  rw [List.filter_filter] at hupto
  have hsame : l.filter (fun a => decide (lo ≤ time a ∧ time a ≤ hi)) =
      l.filter fun a => decide (time a ≤ hi) && decide (lo ≤ time a) :=
    List.filter_congr fun a _ => by rw [Bool.decide_and, Bool.and_comm]
  rw [hsame]
  exact List.IsChain.prefix (h.suffix hfrom) hupto

end Order

end OpenBridge.Foundation
