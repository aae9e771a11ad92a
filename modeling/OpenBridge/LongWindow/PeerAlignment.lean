import OpenBridge.Foundation.F64

/-!
# Long windows: the alignment of a peer

`InteractionMath.align`: for every instant of a loop the nearest sample of a peer, found by one pass
over both series.  Distances are of `long`s and wrap around.
-/

namespace OpenBridge.LongWindow

open OpenBridge.Foundation

/-- A sample of a `Series`. -/
structure SeriesSample where
  tsMs : ℤ
  value : F64
  valid : Bool

/-- `Series`, as far as it is aligned. -/
structure Series where
  samples : List SeriesSample
  tsSec : F64

/-- An instant of `Peer`; `cursor` is the place `j` of the sample that was looked at. -/
structure AlignedSample where
  alignedTsMs : ℤ
  own : F64
  cursor : ℕ
  peer : F64
  support : Bool

namespace InteractionMath

/-- `Math.abs` of a `long`. -/
def absLong (n : ℤ) : ℤ := if n < 0 then wrap64 (-n) else n

/-- `Math.abs(peer.tsMs[j] - t)`. -/
def distance (s : SeriesSample) (t : ℤ) : ℤ := absLong (wrap64 (s.tsMs - t))

/-- `(long) Math.max(1, own.tsSec * 750)`. -/
def tolMs (tsSec : F64) : ℤ :=
  ((F64.max (F64.ofInt 1) (F64.mul tsSec (F64.ofInt 750))).map Double.toLong).getD 0

def advance (peer : List SeriesSample) (t : ℤ) (j : ℕ) : ℕ :=
  if h : j + 1 < peer.length then
    if distance peer[j + 1] t ≤ distance peer[j] t then advance peer t (j + 1) else j
  else j
termination_by peer.length - j

def alignOne (peer : List SeriesSample) (tol : ℤ) (o : SeriesSample) (j : ℕ) : AlignedSample :=
  match peer[j]? with
  | some s =>
      let found := distance s o.tsMs ≤ tol ∧ s.valid = true ∧ F64.notFinite s.value = false
      { alignedTsMs := o.tsMs
        own := o.value
        cursor := j
        peer := if found then s.value else none
        support := found ∧ o.valid = true ∧ F64.notFinite o.value = false }
  | none => ⟨o.tsMs, o.value, j, none, false⟩

def alignFrom (peer : List SeriesSample) (tol : ℤ) : ℕ → List SeriesSample → List AlignedSample
  | _, [] => []
  | j, o :: rest =>
      alignOne peer tol o (advance peer o.tsMs j) ::
        alignFrom peer tol (advance peer o.tsMs j) rest

def align (own peer : Series) : List AlignedSample :=
  alignFrom peer.samples (tolMs own.tsSec) 0 own.samples

def LastNearest (peer : List SeriesSample) (t : ℤ) (s : SeriesSample) (j : ℕ) : Prop :=
  peer[j]? = some s ∧ ∀ i x, peer[i]? = some x → |s.tsMs - t| ≤ |x.tsMs - t| ∧
    (j < i → |s.tsMs - t| < |x.tsMs - t|)

/-- What is aligned with an instant: the last nearest sample of the peer, if the peer has any; it is
taken within the tolerance and supports the instant when both samples are valid numbers. -/
structure Aligned (peer : List SeriesSample) (tol : ℤ) (o : SeriesSample) (a : AlignedSample) :
    Prop where
  instant : a.alignedTsMs = o.tsMs ∧ a.own = o.value
  unobserved : peer = [] → a.peer = none ∧ a.support = false
  nearest : peer ≠ [] → ∃ s, LastNearest peer o.tsMs s a.cursor ∧
    a.peer = (if |s.tsMs - o.tsMs| ≤ tol ∧ s.valid = true ∧ F64.notFinite s.value = false
      then s.value else none) ∧
    (a.support = true ↔ |s.tsMs - o.tsMs| ≤ tol ∧ (s.valid = true ∧ F64.notFinite s.value = false) ∧
      o.valid = true ∧ F64.notFinite o.value = false)

/-- No difference of two times leaves the range of a `long`. -/
def Fits (peer : List SeriesSample) (t : ℤ) : Prop := ∀ s ∈ peer, |s.tsMs - t| ≤ maxLong

theorem distance_eq {s : SeriesSample} {t : ℤ} (h : |s.tsMs - t| ≤ maxLong) :
    distance s t = |s.tsMs - t| := by
  have hmax : maxLong = 2 ^ 63 - 1 := rfl
  obtain ⟨hlow, hhigh⟩ := abs_le.mp h
  have hwrap : wrap64 (s.tsMs - t) = s.tsMs - t := wrap64_of_range (by omega) (by omega)
  unfold distance absLong
  rw [hwrap]
  split
  · rename_i hneg
    rw [abs_of_neg hneg]
    exact wrap64_of_range (by omega) (by omega)
  · rename_i hpos
    exact (abs_of_nonneg (not_lt.mp hpos)).symm

def Behind (peer : List SeriesSample) (t : ℤ) (j : ℕ) : Prop :=
  ∃ s, peer[j]? = some s ∧ ∀ i x, i ≤ j → peer[i]? = some x → |s.tsMs - t| ≤ |x.tsMs - t|

variable {peer : List SeriesSample} {t : ℤ} {j : ℕ}

theorem behind_zero (h : peer ≠ []) : Behind peer t 0 := by
  obtain ⟨s, rest, rfl⟩ := List.exists_cons_of_ne_nil h
  refine ⟨s, rfl, fun i x hi hx => ?_⟩
  obtain rfl : i = 0 := Nat.le_zero.mp hi
  obtain rfl : s = x := Option.some.inj hx
  exact le_rfl

theorem Behind.later (hsorted : peer.Pairwise fun a b => a.tsMs ≤ b.tsMs) {t' : ℤ}
    (h : Behind peer t j) (hle : t ≤ t') : Behind peer t' j := by
  obtain ⟨s, hs, hbehind⟩ := h
  refine ⟨s, hs, fun i x hi hx => ?_⟩
  have hnear := hbehind i x hi hx
  have horder : x.tsMs ≤ s.tsMs := by
    rcases Nat.lt_or_eq_of_le hi with hlt | rfl
    · obtain ⟨hi', rfl⟩ := List.getElem?_eq_some_iff.mp hx
      obtain ⟨hj', rfl⟩ := List.getElem?_eq_some_iff.mp hs
      exact List.pairwise_iff_getElem.mp hsorted i j hi' hj' hlt
    · exact le_of_eq (congrArg _ (Option.some.inj (hx.symm.trans hs)))
  rcases abs_cases (s.tsMs - t) with ⟨h1, _⟩ | ⟨h1, _⟩ <;>
    rcases abs_cases (x.tsMs - t) with ⟨h2, _⟩ | ⟨h2, _⟩ <;>
    rcases abs_cases (s.tsMs - t') with ⟨h3, _⟩ | ⟨h3, _⟩ <;>
    rcases abs_cases (x.tsMs - t') with ⟨h4, _⟩ | ⟨h4, _⟩ <;> omega

theorem lastNearest_advance (hsorted : peer.Pairwise fun a b => a.tsMs ≤ b.tsMs)
    (hfits : Fits peer t) (h : Behind peer t j) :
    ∃ s, LastNearest peer t s (advance peer t j) := by
  fun_induction advance peer t j with
  | case1 j hlt hnear ih =>
    refine ih ⟨peer[j + 1], List.getElem?_eq_getElem hlt, fun i x hi hx => ?_⟩
    obtain ⟨s, hs, hbehind⟩ := h
    rw [distance_eq (hfits _ (List.getElem_mem _)), distance_eq (hfits _ (List.getElem_mem _))] at hnear
    rcases Nat.lt_or_eq_of_le hi with hi | rfl
    · obtain ⟨_, rfl⟩ := List.getElem?_eq_some_iff.mp hs
      exact le_trans hnear (hbehind i x (Nat.le_of_lt_succ hi) hx)
    · obtain ⟨_, rfl⟩ := List.getElem?_eq_some_iff.mp hx
      exact le_rfl
  | case2 j hlt hfar =>
    obtain ⟨s, hs, hbehind⟩ := h
    refine ⟨s, hs, fun i x hx => ?_⟩
    obtain ⟨hj, rfl⟩ := List.getElem?_eq_some_iff.mp hs
    obtain ⟨hi, rfl⟩ := List.getElem?_eq_some_iff.mp hx
    rw [distance_eq (hfits _ (List.getElem_mem _)), distance_eq (hfits _ (List.getElem_mem _)),
      not_le] at hfar
    rcases Nat.lt_or_ge j i with hji | hij
    · -- the next sample is later than the instant, and so are all after it
      have hnext := List.pairwise_iff_getElem.mp hsorted j (j + 1) hj hlt (Nat.lt_succ_self j)
      have hafter : peer[j + 1].tsMs ≤ peer[i].tsMs := by
        rcases Nat.lt_or_eq_of_le hji with hlt' | heq
        · exact List.pairwise_iff_getElem.mp hsorted (j + 1) i hlt hi hlt'
        · simp only [← heq, le_refl]
      have hstrict : |peer[j].tsMs - t| < |peer[i].tsMs - t| := by
        rcases abs_cases (peer[j].tsMs - t) with ⟨h1, _⟩ | ⟨h1, _⟩ <;>
          rcases abs_cases (peer[j + 1].tsMs - t) with ⟨h2, _⟩ | ⟨h2, _⟩ <;>
          rcases abs_cases (peer[i].tsMs - t) with ⟨h3, _⟩ | ⟨h3, _⟩ <;> omega
      exact ⟨le_of_lt hstrict, fun _ => hstrict⟩
    · exact ⟨hbehind i _ hij hx, fun hji => absurd hji (not_lt.mpr hij)⟩
  | case3 j hlast =>
    obtain ⟨s, hs, hbehind⟩ := h
    refine ⟨s, hs, fun i x hx => ?_⟩
    obtain ⟨hi, -⟩ := List.getElem?_eq_some_iff.mp hx
    exact ⟨hbehind i x (by omega) hx, fun hji => absurd hi (by omega)⟩

theorem alignOne_cursor (tol : ℤ) (o : SeriesSample) : (alignOne peer tol o j).cursor = j := by
  unfold alignOne
  split
  · rfl
  · rfl

theorem aligned_alignOne {tol : ℤ} {o : SeriesSample} (hfits : Fits peer o.tsMs)
    (h : peer ≠ [] → ∃ s, LastNearest peer o.tsMs s j) :
    Aligned peer tol o (alignOne peer tol o j) := by
  unfold alignOne
  split
  · rename_i s hs
    have hmem : s ∈ peer := List.mem_of_getElem? hs
    refine ⟨⟨rfl, rfl⟩, fun hnil => ?_, fun hne => ?_⟩
    · rw [hnil] at hmem
      exact absurd hmem List.not_mem_nil
    · obtain ⟨s', hlast⟩ := h hne
      obtain rfl : s = s' := Option.some.inj (hs.symm.trans hlast.1)
      refine ⟨s, hlast, ?_, ?_⟩
      · dsimp only
        rw [distance_eq (hfits s hmem)]
      · dsimp only
        rw [distance_eq (hfits s hmem), decide_eq_true_eq, and_assoc, and_assoc]
  · rename_i hnone
    refine ⟨⟨rfl, rfl⟩, fun _ => ⟨rfl, rfl⟩, fun hne => ?_⟩
    obtain ⟨s, hlast⟩ := h hne
    rw [hlast.1] at hnone
    cases hnone

theorem aligned_alignFrom {tol : ℤ} (hsorted : peer.Pairwise fun a b => a.tsMs ≤ b.tsMs)
    {own : List SeriesSample} (hown : own.Pairwise fun a b => a.tsMs ≤ b.tsMs)
    (hfits : ∀ o ∈ own, Fits peer o.tsMs)
    (h : peer ≠ [] → ∀ o ∈ own, Behind peer o.tsMs j) :
    List.Forall₂ (Aligned peer tol) own (alignFrom peer tol j own) := by
  induction own generalizing j with
  | nil => exact .nil
  | cons o rest ih =>
    obtain ⟨hfirst, hrest⟩ := List.pairwise_cons.mp hown
    have hnow := hfits o List.mem_cons_self
    have hlast : peer ≠ [] → ∃ s, LastNearest peer o.tsMs s (advance peer o.tsMs j) := fun hne =>
      lastNearest_advance hsorted hnow (h hne o List.mem_cons_self)
    refine .cons (aligned_alignOne hnow hlast)
      (ih hrest (fun o' ho' => hfits o' (List.mem_cons_of_mem _ ho')) fun hne o' ho' => ?_)
    obtain ⟨s, hs, hnear⟩ := hlast hne
    have hbehind : Behind peer o.tsMs (advance peer o.tsMs j) :=
      ⟨s, hs, fun i x _ hx => (hnear i x hx).1⟩
    exact hbehind.later hsorted (hfirst o' ho')

/-- The pass finds for every instant the last nearest sample of the peer, where no difference of times
leaves the range of a `long`. -/
theorem aligned_align (own peer : Series)
    (hown : own.samples.Pairwise fun a b => a.tsMs ≤ b.tsMs)
    (hpeer : peer.samples.Pairwise fun a b => a.tsMs ≤ b.tsMs)
    (hfits : ∀ o ∈ own.samples, Fits peer.samples o.tsMs) :
    List.Forall₂ (Aligned peer.samples (tolMs own.tsSec)) own.samples (align own peer) :=
  aligned_alignFrom hpeer hown hfits fun hne _ _ => behind_zero hne

def seriesOf (times : List ℤ) : Series := ⟨times.map fun t => ⟨t, F64.ofInt 1, true⟩, F64.ofInt 60⟩

theorem aligned_align_sample :
    List.Forall₂ (Aligned (seriesOf [0, 61000]).samples (tolMs (F64.ofInt 60)))
      (seriesOf [60000, 120000]).samples (align (seriesOf [60000, 120000]) (seriesOf [0, 61000])) :=
  aligned_align (seriesOf [60000, 120000]) (seriesOf [0, 61000]) (by decide) (by decide)
    (by unfold Fits; decide)

/-- A difference that wraps makes the farthest sample the nearest one. -/
theorem align_wraps : ¬ ∀ own peer : Series,
    (own.samples.Pairwise fun a b => a.tsMs ≤ b.tsMs) →
    (peer.samples.Pairwise fun a b => a.tsMs ≤ b.tsMs) →
      List.Forall₂ (Aligned peer.samples (tolMs own.tsSec)) own.samples (align own peer) := by
  intro h
  have hall := h (seriesOf [maxLong]) (seriesOf [minLong, 0]) (by decide) (by decide)
  obtain ⟨-, -, hnearest⟩ := (List.forall₂_cons.mp hall).1
  have hstay : advance (seriesOf [minLong, 0]).samples maxLong 0 = 0 := by
    unfold advance
    rw [dif_pos (by decide)]
    exact if_neg (by decide)
  obtain ⟨s, hlast, -⟩ := hnearest (by decide)
  have hcursor : s = ⟨minLong, F64.ofInt 1, true⟩ := by
    have hplace := hlast.1
    rw [alignOne_cursor] at hplace
    change (seriesOf [minLong, 0]).samples[
      advance (seriesOf [minLong, 0]).samples maxLong 0]? = some s at hplace
    rw [hstay] at hplace
    exact (Option.some.inj hplace).symm
  have hle := (hlast.2 1 ⟨0, F64.ofInt 1, true⟩ rfl).1
  rw [hcursor] at hle
  exact absurd hle (by decide)

end InteractionMath

end OpenBridge.LongWindow
