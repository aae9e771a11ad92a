import Mathlib.Data.Finset.Sort
import OpenBridge.Foundation.Double

/-!
# Evidence: which cycles get an artifact

`CycleSampling`: at most `k` of `n` cycles, evenly spaced, the ends first, then those of priority, then
the others.  Indices are computed in 32-bit words; `Math.round` is taken of the exact quotient.
-/

namespace OpenBridge.Evidence.CycleSampling

open OpenBridge.Foundation

/-- `Math.round` of the quotient of two numbers, the second positive. -/
def roundQuotient (a b : ℤ) : ℤ := (2 * a + b) / (2 * b)

/-- `pick(n, k)`. -/
def pick (n : ℕ) (k : ℤ) : List ℕ :=
  if k ≤ 0 ∨ n ≤ k then List.range n
  else if k = 1 then [0]
  else (List.range k.toNat).map fun i : ℕ => (roundQuotient (wrap32 (i * (n - 1))) (k - 1)).toNat

/-- `fill`: add candidates up to `k`, all when they fit, else evenly spaced. -/
def fill (chosen : Finset ℕ) (candidates : List ℕ) (k : ℤ) : Finset ℕ :=
  let room := k - chosen.card
  if room ≤ 0 ∨ candidates = [] then chosen
  else chosen ∪ ((pick candidates.length room).filterMap fun i => candidates[i]?).toFinset

def ends (n : ℕ) (k : ℤ) : Finset ℕ := if 2 ≤ k then {0, n - 1} else ∅

/-- The cycles that are neither taken nor without the flag, `preferred`, and with `false` the others
that are not taken, `rest`. -/
def candidates (n : ℕ) (k : ℤ) (priority : List Bool) (flag : Bool) : List ℕ :=
  (List.range n).filter fun i => i ∉ ends n k ∧ priority[i]? = some flag

/-- `pick(n, k, priority)`. -/
def pickPriority (n : ℕ) (k : ℤ) (priority : Option (List Bool)) : List ℕ :=
  match priority with
  | none => pick n k
  | some flags =>
      if flags.length ≠ n ∨ n = 0 ∨ k ≤ 0 ∨ n ≤ k ∨ true ∉ flags then pick n k
      else
        (fill (fill (ends n k) (candidates n k flags true) k) (candidates n k flags false) k).sort
          (· ≤ ·)

/-! ## Evenly spaced -/

section Even

variable {n : ℕ} {k : ℤ}

theorem roundQuotient_add {a b c : ℤ} (hb : 0 < b) (hc : b ≤ c) :
    roundQuotient a b + 1 ≤ roundQuotient (a + c) b := by
  unfold roundQuotient
  rw [← Int.add_mul_ediv_right _ _ (by omega : 2 * b ≠ 0)]
  exact Int.ediv_le_ediv (by omega) (by omega)

theorem roundQuotient_lt {i j : ℕ} (hk : 2 ≤ k) (hn : k < n) (hij : i < j) :
    roundQuotient (i * (n - 1)) (k - 1) < roundQuotient (j * (n - 1)) (k - 1) := by
  induction j with
  | zero => exact absurd hij (Nat.not_lt_zero i)
  | succ j ih =>
    have hstep : roundQuotient (j * (n - 1)) (k - 1) + 1 ≤
        roundQuotient ((j + 1 : ℕ) * (n - 1)) (k - 1) := by
      have hcast : ((j + 1 : ℕ) : ℤ) * (n - 1) = j * (n - 1) + (n - 1) := by push_cast; ring
      rw [hcast]
      exact roundQuotient_add (by omega) (by omega)
    rcases Nat.lt_succ_iff_lt_or_eq.mp hij with hlt | rfl
    · exact lt_trans (ih hlt) (by omega)
    · omega

theorem roundQuotient_zero (hk : 2 ≤ k) : roundQuotient 0 (k - 1) = 0 := by
  unfold roundQuotient
  exact Int.ediv_eq_zero_of_lt (by omega) (by omega)

theorem roundQuotient_last (hk : 2 ≤ k) (m : ℤ) : roundQuotient ((k - 1) * m) (k - 1) = m := by
  unfold roundQuotient
  have hsplit : 2 * ((k - 1) * m) + (k - 1) = (k - 1) + m * (2 * (k - 1)) := by ring
  rw [hsplit, Int.add_mul_ediv_right _ _ (by omega)]
  rw [Int.ediv_eq_zero_of_lt (by omega) (by omega), zero_add]

theorem wrap32_index {i : ℕ} (hi : (i : ℤ) ≤ k - 1) (hn : 1 ≤ n)
    (hfits : ((n : ℤ) - 1) * (k - 1) < 2 ^ 31) : wrap32 (i * (n - 1)) = i * (n - 1) := by
  have hnonneg : 0 ≤ (i : ℤ) * (n - 1) := mul_nonneg (by omega) (by omega)
  have hle : (i : ℤ) * (n - 1) ≤ (n - 1) * (k - 1) := by
    rw [mul_comm]
    exact mul_le_mul_of_nonneg_left hi (by omega)
  simp only [wrap32, Int.bmod]
  omega

/-- The plain choice: rising indices, as many as asked for, with both ends where two are taken. -/
structure Even (n : ℕ) (k : ℤ) (out : List ℕ) : Prop where
  sorted : out.Pairwise (· < ·)
  bounded : ∀ i ∈ out, i < n
  size : (out.length : ℤ) = if k ≤ 0 ∨ n ≤ k then (n : ℤ) else k
  ends : 2 ≤ k → 2 ≤ n → 0 ∈ out ∧ n - 1 ∈ out

theorem even_pick (hfits : ((n : ℤ) - 1) * (k - 1) < 2 ^ 31) : Even n k (pick n k) := by
  unfold pick
  split
  · rename_i hall
    exact ⟨List.pairwise_lt_range, fun i hi => List.mem_range.mp hi,
      by rw [List.length_range, if_pos hall],
      fun _ hn => ⟨List.mem_range.mpr (by omega), List.mem_range.mpr (by omega)⟩⟩
  · rename_i hsome
    rw [not_or, not_le, not_le] at hsome
    obtain ⟨hk, hn⟩ := hsome
    have hsize : (if k ≤ 0 ∨ (n : ℤ) ≤ k then (n : ℤ) else k) = k := if_neg (by omega)
    split
    · rename_i hone
      subst hone
      exact ⟨List.pairwise_singleton _ _, by simp; omega, by rw [hsize]; rfl, by omega⟩
    · rename_i hone
      have hk2 : 2 ≤ k := by omega
      have hplace : ∀ i ∈ List.range k.toNat,
          (roundQuotient (wrap32 (i * (n - 1))) (k - 1)).toNat =
            (roundQuotient (i * (n - 1)) (k - 1)).toNat := fun i hi => by
        have hlt := List.mem_range.mp hi
        rw [wrap32_index (by omega) (by omega) hfits]
      rw [List.map_congr_left hplace]
      have hlast : roundQuotient ((k.toNat - 1 : ℕ) * (n - 1)) (k - 1) = n - 1 := by
        have hcast : ((k.toNat - 1 : ℕ) : ℤ) = k - 1 := by omega
        rw [hcast]
        exact roundQuotient_last hk2 _
      have hnonneg (i : ℕ) : 0 ≤ roundQuotient (i * (n - 1)) (k - 1) := by
        refine Int.ediv_nonneg ?_ (by omega)
        have hmul : 0 ≤ (i : ℤ) * (n - 1) := mul_nonneg (by omega) (by omega)
        omega
      constructor
      · refine List.pairwise_map.mpr (List.pairwise_lt_range.imp fun {i j} hij => ?_)
        have hlt := roundQuotient_lt hk2 hn hij
        have hi := hnonneg i
        omega
      · intro x hx
        obtain ⟨i, hi, rfl⟩ := List.mem_map.mp hx
        have hle : roundQuotient (i * (n - 1)) (k - 1) ≤ n - 1 := by
          have hik := List.mem_range.mp hi
          rcases Nat.lt_or_eq_of_le (by omega : i ≤ k.toNat - 1) with hlt | rfl
          · have hrise := roundQuotient_lt hk2 hn hlt
            omega
          · omega
        omega
      · rw [List.length_map, List.length_range, hsize]
        omega
      · intro _ _
        refine ⟨List.mem_map.mpr ⟨0, List.mem_range.mpr (by omega), ?_⟩,
          List.mem_map.mpr ⟨k.toNat - 1, List.mem_range.mpr (by omega), ?_⟩⟩
        · rw [Nat.cast_zero, zero_mul, roundQuotient_zero hk2]
          rfl
        · rw [hlast]
          omega

theorem Even.nodup {out : List ℕ} (h : Even n k out) : out.Nodup := h.sorted.imp fun h => ne_of_lt h

end Even

/-! ## Priorities -/

section Priority

variable {n : ℕ} {k : ℤ}

theorem exists_fill {chosen : Finset ℕ} {cs : List ℕ} (hcs : cs.Nodup)
    (hapart : ∀ i ∈ cs, i ∉ chosen) (hroom : (chosen.card : ℤ) ≤ k)
    (hfits : ((cs.length : ℤ) - 1) * (k - 1) < 2 ^ 31) :
    ∃ added ⊆ cs.toFinset, fill chosen cs k = chosen ∪ added ∧ Disjoint chosen added ∧
      (added.card : ℤ) = min (k - chosen.card) cs.length := by
  unfold fill
  dsimp only
  split
  · rename_i hnone
    refine ⟨∅, Finset.empty_subset _, by rw [Finset.union_empty], Finset.disjoint_empty_right _, ?_⟩
    rw [Finset.card_empty]
    rcases hnone with hfull | rfl
    · omega
    · simp only [List.length_nil]
      omega
  · rename_i hsome
    rw [not_or, not_le] at hsome
    obtain ⟨hpos, hne⟩ := hsome
    have hlength : 1 ≤ cs.length := List.length_pos_iff.mpr hne
    have hprod : ((cs.length : ℤ) - 1) * (k - chosen.card - 1) < 2 ^ 31 := by
      refine lt_of_le_of_lt (mul_le_mul_of_nonneg_left ?_ (by omega)) hfits
      omega
    have heven := even_pick hprod
    generalize pick cs.length (k - chosen.card) = places at heven
    have hlookup : places.filterMap (fun i => cs[i]?) = places.map fun i => cs.getD i 0 := by
      rw [List.filterMap_eq_map_iff_forall_eq_some]
      intro i hi
      rw [List.getD_eq_getElem?_getD, List.getElem?_eq_getElem (heven.bounded i hi)]
      rfl
    have hnodup : (places.filterMap fun i => cs[i]?).Nodup := by
      refine List.Nodup.filterMap (fun i j x hi hj => ?_) heven.nodup
      obtain ⟨hlt, heq⟩ := List.getElem?_eq_some_iff.mp hi
      obtain ⟨hlt', heq'⟩ := List.getElem?_eq_some_iff.mp hj
      exact (hcs.getElem_inj_iff).mp (heq.trans heq'.symm)
    have hsub : (places.filterMap fun i => cs[i]?).toFinset ⊆ cs.toFinset := by
      intro x hx
      obtain ⟨i, -, hi⟩ := List.mem_filterMap.mp (List.mem_toFinset.mp hx)
      exact List.mem_toFinset.mpr (List.mem_of_getElem? hi)
    refine ⟨_, hsub, rfl, ?_, ?_⟩
    · refine Finset.disjoint_right.mpr fun x hx => ?_
      exact hapart x (List.mem_toFinset.mp (hsub hx))
    · rw [List.toFinset_card_of_nodup hnodup, hlookup, List.length_map, heven.size]
      split
      · omega
      · omega

/-- The choice with priorities: rising indices, as many as asked for, with both ends where two are
taken; every cycle of priority when these and the ends fit, and no other one while one is left out. -/
structure Prefers (n : ℕ) (k : ℤ) (priority : List Bool) (out : List ℕ) : Prop where
  sorted : out.Pairwise (· < ·)
  bounded : ∀ i ∈ out, i < n
  size : (out.length : ℤ) = if k ≤ 0 ∨ n ≤ k then (n : ℤ) else k
  ends : 2 ≤ k → 2 ≤ n → 0 ∈ out ∧ n - 1 ∈ out
  complete : (((Finset.range n).filter fun i => i = 0 ∨ i = n - 1 ∨ priority[i]? = some true).card : ℤ)
    ≤ k → ∀ i, priority[i]? = some true → i ∈ out
  preferred : ∀ i ∈ out, i ≠ 0 → i ≠ n - 1 → priority[i]? = some false →
    ∀ j, priority[j]? = some true → j ∈ out

theorem prefers_pick (priority : List Bool) (hlength : priority.length = n)
    (hfits : ((n : ℤ) - 1) * (k - 1) < 2 ^ 31)
    (hplain : n = 0 ∨ k ≤ 0 ∨ n ≤ k ∨ true ∉ priority) : Prefers n k priority (pick n k) := by
  have heven := even_pick hfits
  have hall : ∀ j, priority[j]? = some true → j ∈ pick n k := by
    intro j hj
    obtain ⟨hlt, heq⟩ := List.getElem?_eq_some_iff.mp hj
    have htrue : true ∈ priority := heq ▸ List.getElem_mem hlt
    have hpick : pick n k = List.range n := if_pos (by
      rcases hplain with hplain | hplain | hplain | hplain
      · omega
      · exact .inl hplain
      · exact .inr hplain
      · exact absurd htrue hplain)
    rw [hpick]
    exact List.mem_range.mpr (by omega)
  exact ⟨heven.sorted, heven.bounded, heven.size, heven.ends, fun _ => hall, fun _ _ _ _ _ => hall⟩

theorem mem_candidates {priority : List Bool} {flag : Bool} {i : ℕ} :
    i ∈ candidates n k priority flag ↔ i < n ∧ i ∉ ends n k ∧ priority[i]? = some flag := by
  unfold candidates
  rw [List.mem_filter, List.mem_range, decide_eq_true_eq]

theorem nodup_candidates (priority : List Bool) (flag : Bool) :
    (candidates n k priority flag).Nodup := List.nodup_range.filter _

theorem ends_subset (hn : 0 < n) : ends n k ⊆ Finset.range n := by
  unfold ends
  split
  · intro i hi
    rcases Finset.mem_insert.mp hi with rfl | hi
    · exact Finset.mem_range.mpr hn
    · rw [Finset.mem_singleton.mp hi]
      exact Finset.mem_range.mpr (by omega)
  · exact Finset.empty_subset _

theorem card_ends_le (hk : 0 < k) : ((ends n k).card : ℤ) ≤ k := by
  unfold ends
  split
  · have htwo : (({0, n - 1} : Finset ℕ)).card ≤ 2 := Finset.card_le_two
    omega
  · rw [Finset.card_empty]
    omega

theorem card_all {priority : List Bool} (hlength : priority.length = n) (hn : 0 < n) :
    (ends n k).card + (candidates n k priority true).length +
      (candidates n k priority false).length = n := by
  have hunion : ends n k ∪ ((candidates n k priority true).toFinset ∪
      (candidates n k priority false).toFinset) = Finset.range n := by
    ext i
    simp only [Finset.mem_union, List.mem_toFinset, mem_candidates, Finset.mem_range]
    constructor
    · rintro (hi | ⟨hi, -⟩ | ⟨hi, -⟩)
      · exact Finset.mem_range.mp (ends_subset hn hi)
      · exact hi
      · exact hi
    · intro hi
      by_cases hend : i ∈ ends n k
      · exact .inl hend
      · have hbound : i < priority.length := hlength ▸ hi
        have hflag : priority[i]? = some priority[i] := List.getElem?_eq_getElem hbound
        right
        cases hi' : priority[i] with
        | true => exact .inl ⟨hi, hend, by rw [hflag, hi']⟩
        | false => exact .inr ⟨hi, hend, by rw [hflag, hi']⟩
  have hflags : Disjoint (candidates n k priority true).toFinset
      (candidates n k priority false).toFinset := by
    refine Finset.disjoint_left.mpr fun i hi hi' => ?_
    have htrue := (mem_candidates.mp (List.mem_toFinset.mp hi)).2.2
    have hfalse := (mem_candidates.mp (List.mem_toFinset.mp hi')).2.2
    rw [htrue] at hfalse
    cases hfalse
  have hends : Disjoint (ends n k) ((candidates n k priority true).toFinset ∪
      (candidates n k priority false).toFinset) := by
    refine Finset.disjoint_right.mpr fun i hi => ?_
    rcases Finset.mem_union.mp hi with hi | hi
    · exact (mem_candidates.mp (List.mem_toFinset.mp hi)).2.1
    · exact (mem_candidates.mp (List.mem_toFinset.mp hi)).2.1
  have hcard := congrArg Finset.card hunion
  rw [Finset.card_union_of_disjoint hends, Finset.card_union_of_disjoint hflags,
    List.toFinset_card_of_nodup (nodup_candidates _ _),
    List.toFinset_card_of_nodup (nodup_candidates _ _), Finset.card_range] at hcard
  omega

theorem exists_rounds {priority : List Bool} (hlength : priority.length = n) (hk : 0 < k)
    (hn : k < n) (hfits : ((n : ℤ) - 1) * (k - 1) < 2 ^ 31) :
    ∃ preferred ⊆ (candidates n k priority true).toFinset,
      ∃ others ⊆ (candidates n k priority false).toFinset,
        fill (fill (ends n k) (candidates n k priority true) k) (candidates n k priority false) k =
          ends n k ∪ preferred ∪ others ∧
        ((ends n k ∪ preferred ∪ others).card : ℤ) = k ∧
        (preferred.card : ℤ) = min (k - (ends n k).card) (candidates n k priority true).length ∧
        (others.Nonempty → preferred = (candidates n k priority true).toFinset) := by
  have hall := card_all hlength (k := k) (by omega : 0 < n)
  have hends := card_ends_le (n := n) hk
  have hfew (flag : Bool) (h : (candidates n k priority flag).length ≤ n) :
      (((candidates n k priority flag).length : ℤ) - 1) * (k - 1) < 2 ^ 31 :=
    lt_of_le_of_lt (mul_le_mul_of_nonneg_right (by omega) (by omega)) hfits
  obtain ⟨preferred, hpreferred, hfirst, hapart, hcount⟩ := exists_fill
    (nodup_candidates priority true) (fun i hi => (mem_candidates.mp hi).2.1) hends
    (hfew true (by omega))
  have hcard := Finset.card_union_of_disjoint hapart
  have hleft : ∀ i ∈ candidates n k priority false, i ∉ ends n k ∪ preferred := by
    intro i hi hmem
    obtain ⟨-, hend, hfalse⟩ := mem_candidates.mp hi
    rcases Finset.mem_union.mp hmem with hmem | hmem
    · exact hend hmem
    · have htrue := (mem_candidates.mp (List.mem_toFinset.mp (hpreferred hmem))).2.2
      rw [hfalse] at htrue
      cases htrue
  obtain ⟨others, hothers, hsecond, hapart', hcount'⟩ := exists_fill
    (nodup_candidates priority false) hleft (by omega) (hfew false (by omega))
  have hcard' := Finset.card_union_of_disjoint hapart'
  refine ⟨preferred, hpreferred, others, hothers, by rw [hfirst, hsecond], by omega, hcount, ?_⟩
  intro hsome
  have hpos := Finset.card_pos.mpr hsome
  refine Finset.eq_of_subset_of_card_le hpreferred ?_
  rw [List.toFinset_card_of_nodup (nodup_candidates _ _)]
  omega

/-- Every choice with priorities is one that prefers them. -/
theorem prefers_pickPriority (n : ℕ) (k : ℤ) (priority : List Bool) (hlength : priority.length = n)
    (hfits : ((n : ℤ) - 1) * (k - 1) < 2 ^ 31) :
    Prefers n k priority (pickPriority n k (some priority)) := by
  unfold pickPriority
  dsimp only
  split
  · rename_i hplain
    exact prefers_pick priority hlength hfits (hplain.resolve_left fun hne => hne hlength)
  · rename_i hchoice
    simp only [not_or, not_le] at hchoice
    obtain ⟨-, hpos, hk, hn, -⟩ := hchoice
    obtain ⟨preferred, hpreferred, others, hothers, hfill, hsize, hcount, hlast⟩ :=
      exists_rounds hlength hk hn hfits
    rw [hfill]
    have hmem {i : ℕ} : i ∈ (ends n k ∪ preferred ∪ others).sort (· ≤ ·) ↔
        i ∈ ends n k ∨ i ∈ preferred ∨ i ∈ others := by
      rw [Finset.mem_sort, Finset.mem_union, Finset.mem_union, or_assoc]
    -- a cycle of priority is an end or a candidate
    have htaken (hwhole : preferred = (candidates n k priority true).toFinset) (j : ℕ)
        (hj : priority[j]? = some true) : j ∈ (ends n k ∪ preferred ∪ others).sort (· ≤ ·) := by
      obtain ⟨hlt, -⟩ := List.getElem?_eq_some_iff.mp hj
      by_cases hend : j ∈ ends n k
      · exact hmem.mpr (.inl hend)
      · refine hmem.mpr (.inr (.inl ?_))
        rw [hwhole, List.mem_toFinset, mem_candidates]
        exact ⟨by omega, hend, hj⟩
    constructor
    · exact (Finset.sortedLT_sort _).pairwise
    · intro i hi
      rcases hmem.mp hi with hi | hi | hi
      · exact Finset.mem_range.mp (ends_subset (by omega) hi)
      · exact (mem_candidates.mp (List.mem_toFinset.mp (hpreferred hi))).1
      · exact (mem_candidates.mp (List.mem_toFinset.mp (hothers hi))).1
    · rw [Finset.length_sort, hsize, if_neg (by omega)]
    · intro htwo _
      have hends : ends n k = {0, n - 1} := if_pos htwo
      rw [hmem, hmem, hends]
      exact ⟨.inl (Finset.mem_insert_self _ _),
        .inl (Finset.mem_insert_of_mem (Finset.mem_singleton_self _))⟩
    · intro hfew
      have hboth : ({0, n - 1} : Finset ℕ) ⊆
          (Finset.range n).filter fun i => i = 0 ∨ i = n - 1 ∨ priority[i]? = some true := by
        intro i hi
        have hcases : i = 0 ∨ i = n - 1 := by simpa using hi
        refine Finset.mem_filter.mpr ⟨Finset.mem_range.mpr (by omega), ?_⟩
        exact hcases.imp_right .inl
      have hpair : ({0, n - 1} : Finset ℕ).card = 2 := Finset.card_pair (by omega)
      have htwo := Finset.card_le_card hboth
      have hends : ends n k = {0, n - 1} := if_pos (by omega)
      have hsub : ends n k ∪ (candidates n k priority true).toFinset ⊆
          (Finset.range n).filter fun i => i = 0 ∨ i = n - 1 ∨ priority[i]? = some true := by
        refine Finset.union_subset (hends ▸ hboth) fun i hi => ?_
        obtain ⟨hlt, -, hflag⟩ := mem_candidates.mp (List.mem_toFinset.mp hi)
        exact Finset.mem_filter.mpr ⟨Finset.mem_range.mpr hlt, .inr (.inr hflag)⟩
      have hapart : Disjoint (ends n k) (candidates n k priority true).toFinset :=
        Finset.disjoint_right.mpr fun i hi => (mem_candidates.mp (List.mem_toFinset.mp hi)).2.1
      have hcard := Finset.card_le_card hsub
      rw [Finset.card_union_of_disjoint hapart,
        List.toFinset_card_of_nodup (nodup_candidates _ _)] at hcard
      refine htaken (Finset.eq_of_subset_of_card_le hpreferred ?_)
      rw [List.toFinset_card_of_nodup (nodup_candidates _ _)]
      omega
    · intro i hi hzero hend hflag
      refine htaken (hlast ⟨i, ?_⟩)
      rcases hmem.mp hi with hi | hi | hi
      · unfold ends at hi
        split at hi
        · rcases Finset.mem_insert.mp hi with hi | hi
          · exact absurd hi hzero
          · exact absurd (Finset.mem_singleton.mp hi) hend
        · exact absurd hi (Finset.notMem_empty i)
      · have htrue := (mem_candidates.mp (List.mem_toFinset.mp (hpreferred hi))).2.2
        rw [hflag] at htrue
        cases htrue
      · exact hi

theorem prefers_pickPriority_sample :
    Prefers 5 3 [false, true, false, true, false]
      (pickPriority 5 3 (some [false, true, false, true, false])) :=
  prefers_pickPriority 5 3 [false, true, false, true, false] rfl (by decide)

end Priority

end OpenBridge.Evidence.CycleSampling
