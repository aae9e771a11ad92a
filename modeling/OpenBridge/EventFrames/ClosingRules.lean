import OpenBridge.EventFrames.Episodes
import Mathlib.Data.List.DropRight

/-!
# Event frames: what the counters of a frame stand for

A row's lifetime is the verdicts that met it open or opened it.
-/

namespace OpenBridge.EventFrames

open OpenBridge.Foundation
open EventFrameLifecycle

/-! ## Runs of one family -/

def faultFamilies (vs : List GateVerdict) : List String :=
  (vs.filter GateVerdict.isFault).map GateVerdict.family

def pendingWindows (family : String) (hs : List String) : ℕ :=
  match hs.getLast? with
  | none => 0
  | some g => if g = family then 0 else (hs.rtakeWhile (· = g)).length

section Runs

variable {family g : String} {hs : List String}

@[simp] theorem pendingWindows_nil : pendingWindows family [] = 0 := rfl

@[simp] theorem pendingWindows_concat_self :
    pendingWindows family (hs ++ [family]) = 0 := by
  simp [pendingWindows]

theorem pendingWindows_eq (h : hs.getLast? = some g) (hne : g ≠ family) :
    pendingWindows family hs = (hs.rtakeWhile (· = g)).length := by
  unfold pendingWindows
  rw [h]
  exact if_neg hne

theorem pendingWindows_concat (hne : g ≠ family) : pendingWindows family (hs ++ [g]) =
    if hs.getLast? = some g then pendingWindows family hs + 1 else 1 := by
  rw [pendingWindows_eq (by simp) hne, List.rtakeWhile_concat_pos _ _ _ (by simp),
    List.length_append, List.length_singleton]
  split
  · rename_i hlast
    rw [pendingWindows_eq hlast hne]
  · rename_i hlast
    rcases List.eq_nil_or_concat' hs with rfl | ⟨hs', x, rfl⟩
    · rfl
    · rw [List.rtakeWhile_concat_neg _ _ _ (by simpa using hlast)]
      rfl

theorem pendingWindows_pos (h : hs.getLast? = some g) (hne : g ≠ family) :
    0 < pendingWindows family hs := by
  obtain ⟨hs', rfl⟩ := List.getLast?_eq_some_iff.mp h
  rw [pendingWindows_concat hne]
  split <;> omega

theorem le_pendingWindows_iff {N : ℕ} (hN : 1 ≤ N) : N ≤ pendingWindows family hs ↔
    ∃ g, g ≠ family ∧ List.replicate N g <:+ hs := by
  constructor
  · intro h
    have hlast : ∃ g, hs.getLast? = some g := by
      rcases List.eq_nil_or_concat' hs with rfl | ⟨hs', x, rfl⟩
      · rw [pendingWindows_nil] at h
        omega
      · exact ⟨x, by simp⟩
    obtain ⟨g, hlast⟩ := hlast
    have hne : g ≠ family := by
      intro heq
      simp only [pendingWindows, hlast, heq, if_true] at h
      omega
    rw [pendingWindows_eq hlast hne] at h
    refine ⟨g, hne, ?_⟩
    have hrun : hs.rtakeWhile (· = g) = List.replicate (hs.rtakeWhile (· = g)).length g := by
      rw [List.eq_replicate_iff]
      exact ⟨rfl, fun x hx => by simpa using List.mem_rtakeWhile_imp hx⟩
    refine List.IsSuffix.trans ?_ (List.rtakeWhile_suffix (· = g) hs)
    rw [hrun]
    refine ⟨List.replicate ((hs.rtakeWhile (· = g)).length - N) g, ?_⟩
    rw [List.replicate_append_replicate, Nat.sub_add_cancel h]
  · rintro ⟨g, hne, pre, rfl⟩
    obtain ⟨k, rfl⟩ : ∃ k, N = k + 1 := ⟨N - 1, by omega⟩
    have hrep (k : ℕ) : k + 1 ≤ pendingWindows family (pre ++ List.replicate (k + 1) g) := by
      induction k with
      | zero =>
        rw [List.replicate_one, pendingWindows_concat hne]
        split <;> omega
      | succ k ih =>
        rw [List.replicate_succ', ← List.append_assoc, pendingWindows_concat hne, if_pos]
        · omega
        · rw [List.replicate_succ', ← List.append_assoc]
          simp
    exact hrep k

end Runs

/-! ## The lifetime of a row -/

def FrameTable.isOpenRow (t : FrameTable) (id : ℕ) : Bool :=
  t.rows.any fun r => r.id = id ∧ r.isOpen

def lifetime (n : ℤ) (id : ℕ) : FrameTable → List GateVerdict → List GateVerdict
  | _, [] => []
  | t, v :: rest =>
      let t' := (FrameTable.applyVerdict n t v).1
      if t.isOpenRow id ∨ t'.isOpenRow id then v :: lifetime n id t' rest else lifetime n id t' rest

def lifetimeOf (n : ℤ) (id : ℕ) (vs : List GateVerdict) : List GateVerdict := lifetime n id {} vs

theorem lifetime_cons (n : ℤ) (id : ℕ) (t : FrameTable) (v : GateVerdict)
    (rest : List GateVerdict) :
    lifetime n id t (v :: rest) =
      (if t.isOpenRow id ∨ (FrameTable.applyVerdict n t v).1.isOpenRow id then [v] else []) ++
        lifetime n id (FrameTable.applyVerdict n t v).1 rest := by
  simp only [lifetime]
  split <;> simp

theorem lifetime_concat (n : ℤ) (id : ℕ) (t : FrameTable) (vs : List GateVerdict)
    (v : GateVerdict) :
    lifetime n id t (vs ++ [v]) = lifetime n id t vs ++
      if (Machine.stateAfter (FrameTable.applyVerdict n) t vs).isOpenRow id ∨
        (Machine.stateAfter (FrameTable.applyVerdict n) t (vs ++ [v])).isOpenRow id
      then [v] else [] := by
  induction vs generalizing t with
  | nil =>
    rw [List.nil_append, lifetime_cons, Machine.stateAfter_cons, Machine.stateAfter_nil]
    exact List.append_nil _
  | cons w rest ih =>
    rw [List.cons_append, lifetime_cons, lifetime_cons, ih, Machine.stateAfter_cons,
      Machine.stateAfter_cons, List.append_assoc]

theorem lifetimeOf_concat (n : ℤ) (id : ℕ) (vs : List GateVerdict) (v : GateVerdict) :
    lifetimeOf n id (vs ++ [v]) = lifetimeOf n id vs ++
      if (FrameTable.after n vs).isOpenRow id ∨ (FrameTable.after n (vs ++ [v])).isOpenRow id
      then [v] else [] :=
  lifetime_concat n id {} vs v

def contributions (family : String) (vs : List GateVerdict) : List GateVerdict :=
  vs.filter fun v => v.isFault ∧ v.family = family

theorem contributions_concat (family : String) (vs : List GateVerdict) (v : GateVerdict) :
    contributions family (vs ++ [v]) = contributions family vs ++
      if v.isFault ∧ v.family = family then [v] else [] := by
  simp [contributions, List.filter_append, List.filter_cons]

theorem faultFamilies_concat (vs : List GateVerdict) (v : GateVerdict) :
    faultFamilies (vs ++ [v]) = faultFamilies vs ++ if v.isFault then [v.family] else [] := by
  unfold faultFamilies
  rw [List.filter_append, List.map_append, List.filter_cons]
  split <;> simp

/-- The peak of a frame is the most confident verdict of its family among those given. -/
structure PeakOf (f : FrameState) (vs : List GateVerdict) : Prop where
  family : familyOf f.peakDiagnosis = f.family
  attained : ∃ v ∈ contributions f.family vs, v.confidence = f.peakConfidence
  greatest : ∀ v ∈ contributions f.family vs, f.peakConfidence.lt v.confidence = false

/-- The candidate of a frame is the run of another family at the end of the verdicts given. -/
structure CandidateOf (n : ℤ) (f : FrameState) (vs : List GateVerdict) : Prop where
  windows : f.candidateWindows = pendingWindows f.family (faultFamilies vs)
  family : f.candidateFamily =
    if f.candidateWindows = 0 then none else (faultFamilies vs).getLast?
  short : (f.candidateWindows : ℤ) < max 1 n

section Counters

variable {n : ℤ} {f : FrameState} {vs : List GateVerdict} {v : GateVerdict}

theorem peakOf_opens : PeakOf v.opens [v] ↔ v.isFault = true := by
  constructor
  · rintro ⟨-, ⟨w, hw, -⟩, -⟩
    simp only [contributions, List.mem_filter, List.mem_singleton, decide_eq_true_eq] at hw
    exact hw.1 ▸ hw.2.1
  · intro hv
    have hcontributions : contributions v.opens.family [v] = [v] := by
      simp [contributions, GateVerdict.opens, openFrame, hv]
    refine ⟨rfl, ?_, ?_⟩
    · rw [hcontributions]
      exact ⟨v, by simp, rfl⟩
    · rw [hcontributions]
      intro w hw
      obtain rfl : w = v := by simpa using hw
      exact Double.lt_self _

theorem PeakOf.keep (h : PeakOf f vs) (hv : ¬ (v.isFault = true ∧ v.family = f.family))
    {f' : FrameState} (hfamily : f'.family = f.family)
    (hdiagnosis : f'.peakDiagnosis = f.peakDiagnosis)
    (hconfidence : f'.peakConfidence = f.peakConfidence) : PeakOf f' (vs ++ [v]) := by
  have hcontributions : contributions f'.family (vs ++ [v]) = contributions f.family vs := by
    rw [hfamily, contributions_concat, if_neg hv, List.append_nil]
  refine ⟨by rw [hdiagnosis, hfamily, h.family], ?_, ?_⟩
  · rw [hcontributions, hconfidence]
    exact h.attained
  · rw [hcontributions, hconfidence]
    exact h.greatest

theorem PeakOf.extended (h : PeakOf f vs) (hv : v.isFault = true) (heq : f.family = v.family) :
    PeakOf (f.extended v) (vs ++ [v]) := by
  have hcontributions : contributions (f.extended v).family (vs ++ [v]) =
      contributions f.family vs ++ [v] := by
    rw [show (f.extended v).family = f.family from rfl, contributions_concat,
      if_pos ⟨hv, heq.symm⟩]
  cases hup : f.peakConfidence.lt v.confidence with
  | true =>
    have hdiagnosis : (f.extended v).peakDiagnosis = v.diagnosis.getD "" := by
      simp [FrameState.extended, extend, hup]
    have hconfidence : (f.extended v).peakConfidence = v.confidence := by
      simp [FrameState.extended, extend, hup]
    refine ⟨?_, ?_, ?_⟩
    · rw [hdiagnosis]
      exact heq.symm
    · rw [hcontributions, hconfidence]
      exact ⟨v, by simp, rfl⟩
    · rw [hcontributions, hconfidence]
      intro w hw
      rcases List.mem_append.mp hw with hw | hw
      · exact Double.lt_asymm (F64.lt_double_of_not_lt (h.greatest w hw) hup)
      · obtain rfl : w = v := by simpa using hw
        exact Double.lt_self _
  | false =>
    have hdiagnosis : (f.extended v).peakDiagnosis = f.peakDiagnosis := by
      simp [FrameState.extended, extend, hup]
    have hconfidence : (f.extended v).peakConfidence = f.peakConfidence := by
      simp [FrameState.extended, extend, hup]
    refine ⟨?_, ?_, ?_⟩
    · rw [hdiagnosis]
      exact h.family
    · rw [hcontributions, hconfidence]
      obtain ⟨w, hw, hattained⟩ := h.attained
      exact ⟨w, List.mem_append_left _ hw, hattained⟩
    · rw [hcontributions, hconfidence]
      intro w hw
      rcases List.mem_append.mp hw with hw | hw
      · exact h.greatest w hw
      · obtain rfl : w = v := by simpa using hw
        exact hup

theorem candidateOf_opens (hv : v.isFault = true) : CandidateOf n v.opens [v] := by
  have hfamilies : faultFamilies [v] = [] ++ [v.family] := by simp [faultFamilies, hv]
  refine ⟨?_, rfl, ?_⟩
  · rw [hfamilies]
    exact pendingWindows_concat_self.symm
  · exact lt_of_lt_of_le Int.one_pos (le_max_left 1 n)

theorem CandidateOf.held_eq (h : CandidateOf n f vs) (hv : v.isFault = true)
    (hne : f.family ≠ v.family) :
    held f v.family = pendingWindows f.family (faultFamilies (vs ++ [v])) := by
  rw [faultFamilies_concat, if_pos hv, pendingWindows_concat hne.symm]
  unfold held
  by_cases hlast : (faultFamilies vs).getLast? = some v.family
  · have hpos := pendingWindows_pos hlast hne.symm
    have hwindows := h.windows
    have hfamily := h.family
    rw [if_neg (by omega)] at hfamily
    rw [hfamily, if_pos hlast, if_pos hlast, hwindows]
  · rw [if_neg hlast, if_neg]
    rw [h.family]
    split
    · simp
    · exact hlast

theorem CandidateOf.keep (h : CandidateOf n f vs) (hv : v.isFault = false) {f' : FrameState}
    (hfamily : f'.family = f.family) (hcandidate : f'.candidateFamily = f.candidateFamily)
    (hwindows : f'.candidateWindows = f.candidateWindows) : CandidateOf n f' (vs ++ [v]) := by
  have hfamilies : faultFamilies (vs ++ [v]) = faultFamilies vs := by
    rw [faultFamilies_concat, hv]
    simp
  refine ⟨?_, ?_, ?_⟩
  · rw [hfamilies, hfamily, hwindows, h.windows]
  · rw [hfamilies, hcandidate, hwindows, h.family]
  · rw [hwindows]
    exact h.short

theorem CandidateOf.pending (h : CandidateOf n f vs) (hv : v.isFault = true)
    (hne : f.family ≠ v.family) (hheld : held f v.family < max 1 n) :
    CandidateOf n (f.pending v) (vs ++ [v]) := by
  have hlast : (faultFamilies (vs ++ [v])).getLast? = some v.family := by
    rw [faultFamilies_concat, if_pos hv, List.getLast?_concat]
  have hwindows : (f.pending v).candidateWindows = held f v.family := rfl
  have hpos : 0 < held f v.family := by
    unfold held
    split <;> omega
  refine ⟨hwindows.trans (h.held_eq hv hne), ?_, ?_⟩
  · rw [hlast, hwindows, if_neg (by omega)]
    rfl
  · rw [hwindows]
    exact hheld

theorem CandidateOf.extended (hv : v.isFault = true) (heq : f.family = v.family) :
    CandidateOf n (f.extended v) (vs ++ [v]) := by
  refine ⟨?_, rfl, ?_⟩
  · rw [faultFamilies_concat, if_pos hv, ← heq]
    exact pendingWindows_concat_self.symm
  · exact lt_of_lt_of_le Int.one_pos (le_max_left 1 n)

end Counters

/-! ## The table and the histories -/

section Histories

variable {n : ℤ} {vs : List GateVerdict} {v : GateVerdict} {t t' : FrameTable}
  {cs cs' : List FrameRow} {o o' : Option FrameRow}

theorem Holds.isOpenRow_iff (h : Holds t cs o) {id : ℕ} :
    t.isOpenRow id = true ↔ ∃ r ∈ o, r.id = id := by
  unfold FrameTable.isOpenRow
  rw [List.any_eq_true]
  constructor
  · rintro ⟨r, hr, hid⟩
    rw [decide_eq_true_eq] at hid
    have hmem : r ∈ t.rows.filter FrameRow.isOpen := List.mem_filter.mpr ⟨hr, hid.2⟩
    rw [h.filter_open] at hmem
    exact ⟨r, by simpa using hmem, hid.1⟩
  · rintro ⟨r, hr, hid⟩
    refine ⟨r, ?_, by simp [hid, h.standing r hr]⟩
    rw [h.rows]
    exact List.mem_append_right _ (by simpa using hr)

theorem Holds.id_ne (h : Holds t cs o) {r q : FrameRow} (hr : r ∈ cs) (hq : q ∈ o) :
    r.id ≠ q.id := by
  have hdistinct := h.distinct
  rw [List.map_append, List.nodup_append] at hdistinct
  exact hdistinct.2.2 _ (List.mem_map_of_mem hr) _ (List.mem_map_of_mem (by simpa using hq))

theorem Step.closed_prefix {next next' : ℕ} (h : Step n cs next v o cs' o' next') : cs <+: cs' := by
  cases h <;> simp

theorem Step.next_le {next next' : ℕ} (h : Step n cs next v o cs' o' next') : next ≤ next' := by
  cases h <;> omega

structure Follows (n : ℤ) (vs : List GateVerdict) (cs : List FrameRow) (o : Option FrameRow) :
    Prop where
  holds : Holds (FrameTable.after n vs) cs o
  peaks : ∀ r ∈ cs ++ o.toList, PeakOf r.frame (lifetimeOf n r.id vs)
  candidate : ∀ r ∈ o, CandidateOf n r.frame (lifetimeOf n r.id vs)
  unborn : ∀ id, (FrameTable.after n vs).nextId ≤ id → lifetimeOf n id vs = []

theorem lifetimeOf_touched (h : Holds (FrameTable.after n vs) cs o)
    (h' : Holds (FrameTable.after n (vs ++ [v])) cs' o') (id : ℕ)
    (hid : (∃ r ∈ o, r.id = id) ∨ ∃ r ∈ o', r.id = id) :
    lifetimeOf n id (vs ++ [v]) = lifetimeOf n id vs ++ [v] := by
  rw [← h.isOpenRow_iff, ← h'.isOpenRow_iff] at hid
  rw [lifetimeOf_concat, if_pos hid]

theorem lifetimeOf_untouched (h : Holds (FrameTable.after n vs) cs o)
    (h' : Holds (FrameTable.after n (vs ++ [v])) cs' o') {id : ℕ} (hid : ∀ r ∈ o, r.id ≠ id)
    (hid' : ∀ r ∈ o', r.id ≠ id) : lifetimeOf n id (vs ++ [v]) = lifetimeOf n id vs := by
  rw [lifetimeOf_concat, if_neg, List.append_nil]
  rw [h.isOpenRow_iff, h'.isOpenRow_iff]
  rintro (⟨r, hr, heq⟩ | ⟨r, hr, heq⟩)
  · exact hid r hr heq
  · exact hid' r hr heq

theorem GateVerdict.not_fault_of_inconclusive (h : v.inconclusive = true) : v.isFault = false := by
  simp only [GateVerdict.inconclusive, Bool.and_eq_true, Bool.not_eq_true'] at h
  exact h.1

theorem GateVerdict.not_fault_of_recovers (h : v.recovers = true) : v.isFault = false := by
  simp only [GateVerdict.recovers, decide_eq_true_eq] at h
  simp [GateVerdict.isFault, h.1]

theorem Follows.step (h : Follows n vs cs o)
    (hstep : Step n cs (FrameTable.after n vs).nextId v o cs' o'
      (FrameTable.after n (vs ++ [v])).nextId)
    (h' : Holds (FrameTable.after n (vs ++ [v])) cs' o') : Follows n (vs ++ [v]) cs' o' := by
  have hold : ∀ r ∈ cs, PeakOf r.frame (lifetimeOf n r.id (vs ++ [v])) := by
    intro r hr
    have hr' : r ∈ cs' := hstep.closed_prefix.subset hr
    rw [lifetimeOf_untouched h.holds h' (fun q hq => (h.holds.id_ne hr hq).symm)
      (fun q hq => (h'.id_ne hr' hq).symm)]
    exact h.peaks r (List.mem_append_left _ hr)
  have hunborn : ∀ id, (FrameTable.after n (vs ++ [v])).nextId ≤ id →
      lifetimeOf n id (vs ++ [v]) = [] := by
    intro id hid
    have hle := hstep.next_le
    rw [lifetimeOf_untouched h.holds h', h.unborn id (hle.trans hid)]
    · intro r hr
      have := h.holds.fresh r (List.mem_append_right _ (by simpa using hr))
      omega
    · intro r hr
      have := h'.fresh r (List.mem_append_right _ (by simpa using hr))
      omega
  -- what remains is the open row of before, as it is now, and the row of the verdict
  suffices hrest : (∀ r ∈ cs' ++ o'.toList, r ∉ cs →
      PeakOf r.frame (lifetimeOf n r.id (vs ++ [v]))) ∧
      ∀ r ∈ o', CandidateOf n r.frame (lifetimeOf n r.id (vs ++ [v])) by
    refine ⟨h', fun r hr => ?_, hrest.2, hunborn⟩
    by_cases hcs : r ∈ cs
    · exact hold r hcs
    · exact hrest.1 r hr hcs
  have hborn : lifetimeOf n (FrameTable.after n vs).nextId vs = [] := h.unborn _ le_rfl
  generalize (FrameTable.after n (vs ++ [v])).nextId = next' at hstep
  cases hstep with
  | ignored hv =>
    refine ⟨fun r hr hcs => ?_, by simp⟩
    exact absurd (by simpa using hr) hcs
  | opened hv =>
    have hlife : lifetimeOf n (FrameTable.after n vs).nextId (vs ++ [v]) = [v] := by
      rw [lifetimeOf_touched h.holds h' _ (Or.inr ⟨_, rfl, rfl⟩), hborn, List.nil_append]
    refine ⟨fun r hr hcs => ?_, fun r hr => ?_⟩
    · obtain rfl : r = ⟨_, v.opens⟩ := by simpa [hcs] using hr
      rw [hlife]
      exact peakOf_opens.mpr hv
    · obtain rfl : ⟨_, v.opens⟩ = r := by simpa using hr
      rw [hlife]
      exact candidateOf_opens hv
  | @noted q availability hv =>
    have hlife := lifetimeOf_touched h.holds h' q.id (Or.inl ⟨q, rfl, rfl⟩)
    have hfault := GateVerdict.not_fault_of_inconclusive hv
    refine ⟨fun r hr hcs => ?_, fun r hr => ?_⟩
    · obtain rfl : r = ⟨q.id, _⟩ := by simpa [hcs] using hr
      rw [hlife]
      exact (h.peaks q (by simp)).keep (by simp [hfault]) rfl rfl rfl
    · obtain rfl : ⟨q.id, _⟩ = r := by simpa using hr
      rw [hlife]
      exact (h.candidate q rfl).keep hfault rfl rfl rfl
  | @recovered q hv =>
    have hlife := lifetimeOf_touched h.holds h' q.id (Or.inl ⟨q, rfl, rfl⟩)
    have hfault := GateVerdict.not_fault_of_recovers hv
    refine ⟨fun r hr hcs => ?_, by simp⟩
    obtain rfl : r = ⟨q.id, _⟩ := by simpa [hcs] using hr
    rw [hlife]
    exact (h.peaks q (by simp)).keep (by simp [hfault]) rfl rfl rfl
  | @changed q hv hne hheld =>
    have hlife := lifetimeOf_touched h.holds h' q.id (Or.inl ⟨q, rfl, rfl⟩)
    have hlife' : lifetimeOf n (FrameTable.after n vs).nextId (vs ++ [v]) = [v] := by
      rw [lifetimeOf_touched h.holds h' _ (Or.inr ⟨_, rfl, rfl⟩), hborn, List.nil_append]
    refine ⟨fun r hr hcs => ?_, fun r hr => ?_⟩
    · have hr : r = ⟨q.id, closeFrame q.frame v .familyChanged⟩ ∨
          r = ⟨(FrameTable.after n vs).nextId, v.opens⟩ := by
        simpa [hcs] using hr
      rcases hr with rfl | rfl
      · rw [hlife]
        exact (h.peaks q (by simp)).keep (fun hsame => hne hsame.2.symm) rfl rfl rfl
      · rw [hlife']
        exact peakOf_opens.mpr hv
    · obtain rfl : ⟨_, v.opens⟩ = r := by simpa using hr
      rw [hlife']
      exact candidateOf_opens hv
  | @pending q hv hne hheld =>
    have hlife := lifetimeOf_touched h.holds h' q.id (Or.inl ⟨q, rfl, rfl⟩)
    refine ⟨fun r hr hcs => ?_, fun r hr => ?_⟩
    · obtain rfl : r = ⟨q.id, _⟩ := by simpa [hcs] using hr
      rw [hlife]
      exact (h.peaks q (by simp)).keep (fun hsame => hne hsame.2.symm) rfl
        (by simp [FrameState.pending, extend]) (by simp [FrameState.pending, extend])
    · obtain rfl : ⟨q.id, _⟩ = r := by simpa using hr
      rw [hlife]
      exact (h.candidate q rfl).pending hv hne hheld
  | @extended q hv heq =>
    have hlife := lifetimeOf_touched h.holds h' q.id (Or.inl ⟨q, rfl, rfl⟩)
    refine ⟨fun r hr hcs => ?_, fun r hr => ?_⟩
    · obtain rfl : r = ⟨q.id, _⟩ := by simpa [hcs] using hr
      rw [hlife]
      exact (h.peaks q (by simp)).extended hv heq
    · obtain rfl : ⟨q.id, _⟩ = r := by simpa using hr
      rw [hlife]
      exact CandidateOf.extended hv heq

theorem exists_follows (n : ℤ) (vs : List GateVerdict) : ∃ cs o, Follows n vs cs o := by
  induction vs using List.reverseRecOn with
  | nil => exact ⟨[], none, holds_empty, by simp, by simp, fun _ _ => rfl⟩
  | append_singleton vs v ih =>
    obtain ⟨cs, o, h⟩ := ih
    obtain ⟨cs', o', hstep, hholds⟩ := exists_step n h.holds v
    rw [← FrameTable.after_concat] at hstep hholds
    exact ⟨cs', o', h.step hstep hholds⟩

/-! ## Closing -/

def FrameTable.ClosedAs (t : FrameTable) (id : ℕ) (reason : CloseReason) : Prop :=
  ∃ r ∈ t.rows, r.id = id ∧ r.isOpen = false ∧ r.frame.closeReason = some reason

theorem Holds.eq_of_id (h : Holds t cs o) {r q : FrameRow} (hr : r ∈ cs ++ o.toList)
    (hq : q ∈ cs ++ o.toList) (hid : r.id = q.id) : r = q :=
  List.inj_on_of_nodup_map h.distinct hr hq hid

theorem Holds.closedAs_iff (h : Holds t cs o) {q : FrameRow} (hq : q ∈ cs ++ o.toList)
    (reason : CloseReason) :
    t.ClosedAs q.id reason ↔ q.isOpen = false ∧ q.frame.closeReason = some reason := by
  unfold FrameTable.ClosedAs
  rw [h.rows]
  constructor
  · rintro ⟨r, hr, hid, hclosed⟩
    rwa [h.eq_of_id hr hq hid] at hclosed
  · exact fun hclosed => ⟨q, hq, rfl, hclosed⟩

theorem Holds.isOpen_of_id (h : Holds t cs o) {q r : FrameRow} (hq : q ∈ o)
    (hr : r ∈ cs ++ o.toList) (hid : r.id = q.id) : r.isOpen = true := by
  rw [h.eq_of_id hr (List.mem_append_right _ (by simpa using hq)) hid]
  exact h.standing q hq

theorem Holds.not_closedAs (h : Holds t cs o) {q : FrameRow} (hq : q ∈ o) (reason : CloseReason) :
    ¬ t.ClosedAs q.id reason := by
  rw [h.closedAs_iff (List.mem_append_right _ (by simpa using hq)), h.standing q hq]
  simp

theorem Follows.closedAs (h : Follows n vs cs o)
    (hstep : Step n cs (FrameTable.after n vs).nextId v o cs' o'
      (FrameTable.after n (vs ++ [v])).nextId)
    (h' : Holds (FrameTable.after n (vs ++ [v])) cs' o') {q : FrameRow} (hq : o = some q) :
    ((FrameTable.after n (vs ++ [v])).ClosedAs q.id .recovered ↔ v.recovers = true) ∧
    ((FrameTable.after n (vs ++ [v])).ClosedAs q.id .familyChanged ↔
      max 1 n ≤ pendingWindows q.frame.family
        (faultFamilies (lifetimeOf n q.id (vs ++ [v])))) ∧
    ((∃ r ∈ cs' ++ o'.toList, r.id = q.id ∧ r.isOpen = false) →
      (FrameTable.after n (vs ++ [v])).ClosedAs q.id .recovered ∨
        (FrameTable.after n (vs ++ [v])).ClosedAs q.id .familyChanged) := by
  have hlife := lifetimeOf_touched h.holds h' q.id (Or.inl ⟨q, hq, rfl⟩)
  have hcandidate := h.candidate q (by simp [hq])
  -- without a fault the run of the lifetime stays short
  have hshort : v.isFault = false → ¬ max 1 n ≤ (pendingWindows q.frame.family
      (faultFamilies (lifetimeOf n q.id (vs ++ [v]))) : ℤ) := by
    intro hv
    rw [hlife]
    have hkeep := hcandidate.keep hv rfl rfl rfl
    rw [← hkeep.windows, not_le]
    exact hkeep.short
  generalize (FrameTable.after n (vs ++ [v])).nextId = next' at hstep
  cases hstep with
  | ignored hv => cases hq
  | opened hv => cases hq
  | @noted r availability hv =>
    obtain rfl : r = q := by simpa using hq
    have hfault := GateVerdict.not_fault_of_inconclusive hv
    have hrecovers : v.recovers = false := by
      simp only [GateVerdict.inconclusive, Bool.and_eq_true, Bool.not_eq_true'] at hv
      exact hv.2
    refine ⟨?_, ?_, ?_⟩
    · exact iff_of_false (h'.not_closedAs rfl _) (by simp [hrecovers])
    · exact iff_of_false (h'.not_closedAs rfl _) (hshort hfault)
    · rintro ⟨r', hr', hid, hclosed⟩
      rw [h'.isOpen_of_id rfl hr' hid] at hclosed
      cases hclosed
  | @recovered r hv =>
    obtain rfl : r = q := by simpa using hq
    have hfault := GateVerdict.not_fault_of_recovers hv
    have hrow (reason : CloseReason) :=
      h'.closedAs_iff (q := ⟨r.id, closeFrame r.frame v .recovered⟩) (by simp) reason
    refine ⟨?_, ?_, ?_⟩
    · rw [hrow]
      exact iff_of_true ⟨rfl, rfl⟩ hv
    · rw [hrow]
      exact iff_of_false (by simp [closeFrame]) (hshort hfault)
    · intro _
      rw [hrow]
      exact Or.inl ⟨rfl, rfl⟩
  | @changed r hv hne hheld =>
    obtain rfl : r = q := by simpa using hq
    have hrow (reason : CloseReason) := h'.closedAs_iff
      (q := ⟨r.id, closeFrame r.frame v .familyChanged⟩) (by simp) reason
    refine ⟨?_, ?_, ?_⟩
    · rw [hrow]
      refine iff_of_false (by simp [closeFrame]) ?_
      intro hrecovers
      rw [GateVerdict.not_fault_of_recovers hrecovers] at hv
      cases hv
    · rw [hrow, hlife, ← hcandidate.held_eq hv hne]
      exact iff_of_true ⟨rfl, rfl⟩ hheld
    · intro _
      rw [hrow, hrow]
      exact Or.inr ⟨rfl, rfl⟩
  | @pending r hv hne hheld =>
    obtain rfl : r = q := by simpa using hq
    refine ⟨?_, ?_, ?_⟩
    · refine iff_of_false (h'.not_closedAs rfl _) ?_
      intro hrecovers
      rw [GateVerdict.not_fault_of_recovers hrecovers] at hv
      cases hv
    · rw [hlife, ← hcandidate.held_eq hv hne]
      exact iff_of_false (h'.not_closedAs rfl _) (not_le.mpr hheld)
    · rintro ⟨r', hr', hid, hclosed⟩
      rw [h'.isOpen_of_id rfl hr' hid] at hclosed
      cases hclosed
  | @extended r hv heq =>
    obtain rfl : r = q := by simpa using hq
    refine ⟨?_, ?_, ?_⟩
    · refine iff_of_false (h'.not_closedAs rfl _) ?_
      intro hrecovers
      rw [GateVerdict.not_fault_of_recovers hrecovers] at hv
      cases hv
    · rw [hlife, faultFamilies_concat, if_pos hv, ← heq, pendingWindows_concat_self]
      refine iff_of_false (h'.not_closedAs rfl _) (not_le.mpr ?_)
      exact lt_of_lt_of_le Int.one_pos (le_max_left 1 n)
    · rintro ⟨r', hr', hid, hclosed⟩
      rw [h'.isOpen_of_id rfl hr' hid] at hclosed
      cases hclosed

theorem Step.standing_of_inconclusive {next next' : ℕ} (h : Step n cs next v o cs' o' next')
    (hv : v.inconclusive = true) :
    (cs' ++ o'.toList).map (fun r => (r.id, r.frame.standing)) =
      (cs ++ o.toList).map fun r => (r.id, r.frame.standing) := by
  have hfault := GateVerdict.not_fault_of_inconclusive hv
  have hrecovers : v.recovers = false := by
    simp only [GateVerdict.inconclusive, Bool.and_eq_true, Bool.not_eq_true'] at hv
    exact hv.2
  cases h with
  | ignored => rfl
  | opened h => rw [hfault] at h; cases h
  | noted => simp [FrameState.standing, FrameState.noted]
  | recovered h => rw [hrecovers] at h; cases h
  | changed h => rw [hfault] at h; cases h
  | pending h => rw [hfault] at h; cases h
  | extended h => rw [hfault] at h; cases h

end Histories

/-- After any verdicts at most one frame is open, and every frame's peak is the most confident
verdict of its family.  The next verdict closes an open frame as recovered exactly when it is clear
and rests on the whole milliseconds of its recovery support, as changed exactly when the last
`max 1 n` fault verdicts of the frame are of one other family, and in no other way; a verdict that
judges nothing changes no frame's standing. -/
theorem frames_follow_rules (n : ℤ) (vs : List GateVerdict) (v : GateVerdict) :
    ((FrameTable.after n vs).rows.filter FrameRow.isOpen).length ≤ 1 ∧
    (∀ r ∈ (FrameTable.after n vs).rows, PeakOf r.frame (lifetimeOf n r.id vs)) ∧
    (∀ r ∈ (FrameTable.after n vs).rows, r.isOpen = true →
      ((∃ r' ∈ (FrameTable.after n (vs ++ [v])).rows, r'.id = r.id ∧ r'.isOpen = false) →
        (FrameTable.after n (vs ++ [v])).ClosedAs r.id .recovered ∨
          (FrameTable.after n (vs ++ [v])).ClosedAs r.id .familyChanged) ∧
      ((FrameTable.after n (vs ++ [v])).ClosedAs r.id .recovered ↔ v.recovers = true) ∧
      ((FrameTable.after n (vs ++ [v])).ClosedAs r.id .familyChanged ↔
        ∃ g, g ≠ r.frame.family ∧ List.replicate (max 1 n).toNat g <:+
          faultFamilies (lifetimeOf n r.id (vs ++ [v])))) ∧
    (v.inconclusive = true →
      (FrameTable.after n (vs ++ [v])).rows.map (fun r => (r.id, r.frame.standing)) =
        (FrameTable.after n vs).rows.map fun r => (r.id, r.frame.standing)) := by
  obtain ⟨cs, o, h⟩ := exists_follows n vs
  obtain ⟨cs', o', hstep, h'⟩ := exists_step n h.holds v
  rw [← FrameTable.after_concat] at hstep h'
  refine ⟨?_, ?_, ?_, ?_⟩
  · rw [h.holds.filter_open]
    cases o <;> simp
  · rw [h.holds.rows]
    exact h.peaks
  · intro r hr hopen
    have hq : o = some r := by
      have hmem : r ∈ (FrameTable.after n vs).rows.filter FrameRow.isOpen :=
        List.mem_filter.mpr ⟨hr, hopen⟩
      rw [h.holds.filter_open] at hmem
      simpa using hmem
    obtain ⟨hrecovered, hchanged, honly⟩ := h.closedAs hstep h' hq
    refine ⟨?_, hrecovered, ?_⟩
    · rw [h'.rows]
      exact honly
    · have hN : 1 ≤ (max 1 n).toNat := by omega
      rw [hchanged, ← le_pendingWindows_iff hN]
      omega
  · intro hv
    rw [h'.rows, h.holds.rows]
    exact hstep.standing_of_inconclusive hv

def oscillation : GateVerdict :=
  { diagnosis := some "DETECTED_OSCILLATION", confidence := .finite (1 / 2), severity := none,
    windowStart := .ofMs 0, windowEnd := .ofMs 1000, qualifiedSupportMs := 1000,
    recoverySupportS := .finite 0, resultRevision := 1 }

def shortClear : GateVerdict :=
  { diagnosis := some "NO_CALL", confidence := .finite 0, severity := none,
    windowStart := .ofMs 1000, windowEnd := .ofMs 2000, qualifiedSupportMs := 1000,
    recoverySupportS := .finite (2049 / 2048), resultRevision := 1 }

/-- A frame closed as recovered can rest on less than its recovery support, which is cut to whole
milliseconds. -/
theorem recovered_short_of_support : ¬ ∀ (n : ℤ) (vs : List GateVerdict) (v : GateVerdict) (id : ℕ),
    (FrameTable.after n vs).isOpenRow id = true →
    (∃ r ∈ (FrameTable.after n (vs ++ [v])).rows,
      r.id = id ∧ r.frame.closeReason = some .recovered) →
    ∀ s : ℚ, v.recoverySupportS = .finite s → s * 1000 ≤ v.qualifiedSupportMs := by
  intro h
  have hshort := h 3 [oscillation] shortClear 1 (by decide +kernel) (by decide +kernel)
    (2049 / 2048) rfl
  norm_num [shortClear] at hshort

end OpenBridge.EventFrames
