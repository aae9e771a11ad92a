import OpenBridge.EventFrames.ClosingRules
import Mathlib.Algebra.Order.Monoid.Prod

/-!
# Event frames: verdicts delivered again

Nothing in the consumer recognises a verdict it has applied before.
-/

namespace OpenBridge.EventFrames

open OpenBridge.Foundation
open EventFrameLifecycle

/-! ## The support a window adds -/

theorem exists_fraction (x : Double) : ∃ r : ℚ, 0 ≤ r ∧ r ≤ 1 ∧
    F64.min (F64.ofInt 1) (F64.max (F64.ofInt 0) (some x)) = some (.finite r) := by
  have hzero : F64.ofInt 0 = some (.finite 0) := by
    rw [F64.ofInt, Double.ofInt_of_abs_lt (by norm_num)]
    rfl
  have hone : F64.ofInt 1 = some (.finite 1) := by
    rw [F64.ofInt, Double.ofInt_of_abs_lt (by norm_num)]
    rfl
  rw [hzero, hone]
  cases x with
  | infinite negative =>
    cases negative with
    | true => exact ⟨0, le_rfl, zero_le_one, by simp [F64.max, F64.min, F64.lt, Double.lt]⟩
    | false => exact ⟨1, zero_le_one, le_rfl, by simp [F64.max, F64.min, F64.lt, Double.lt]⟩
  | finite q =>
    rcases lt_or_ge 0 q with hpos | hnonpos
    · rcases lt_or_ge q 1 with hlt | hge
      · exact ⟨q, hpos.le, hlt.le, by simp [F64.max, F64.min, F64.lt, Double.lt, hpos, hlt]⟩
      · exact ⟨1, zero_le_one, le_rfl, by
          simp [F64.max, F64.min, F64.lt, Double.lt, hpos, not_lt.mpr hge]⟩
    · exact ⟨0, le_rfl, zero_le_one, by
        simp [F64.max, F64.min, F64.lt, Double.lt, not_lt.mpr hnonpos]⟩

theorem exists_span {d : ℤ} (h : |d| < 2 ^ 53) :
    ∃ b : ℚ, b ≠ 0 ∧ F64.max (F64.ofInt 1) (F64.ofInt d) = some (.finite b) := by
  rw [F64.ofInt, F64.ofInt, Double.ofInt_of_abs_lt h, Double.ofInt_of_abs_lt (by norm_num)]
  rcases lt_or_ge 1 d with hlt | hge
  · have hlt' : (1 : ℚ) < d := by exact_mod_cast hlt
    exact ⟨d, (zero_lt_one.trans hlt').ne', by simp [F64.max, F64.lt, Double.lt, hlt']⟩
  · have hge' : ¬ (1 : ℚ) < d := by exact_mod_cast not_lt.mpr hge
    exact ⟨1, one_ne_zero, by simp [F64.max, F64.lt, Double.lt, hge']⟩

theorem castLong_round_nonneg {a r : ℚ} (ha : 0 ≤ a) (ha' : a ≤ 2 ^ 50) (hr : 0 ≤ r) (hr' : r ≤ 1) :
    0 ≤ F64.castLong (F64.round (F64.mul (some (.finite a)) (some (.finite r)))) := by
  have hprod : a * r ≤ 2 ^ 50 := (mul_le_of_le_one_right ha hr').trans ha'
  obtain ⟨v, hv, hnonneg, hle⟩ := Double.ofRat_of_nonneg (mul_nonneg ha hr)
    (hprod.trans (by norm_num))
  have hcast : F64.castLong (F64.round (F64.mul (some (.finite a)) (some (.finite r)))) =
      Double.castLong (.finite (rint v)) := by
    simp [F64.castLong, F64.mul, F64.ofRat, hv, F64.round]
  rw [hcast]
  have hrint : 0 ≤ rint v := Double.rint_nonneg hnonneg
  have hupper : rint v ≤ maxLong := by
    have hfloor := rint_le_floor_succ v
    have hbound : ⌊v⌋ ≤ 2 ^ 52 := by
      rw [← Int.cast_le (R := ℚ)]
      refine (Int.floor_le v).trans (hle.trans ?_)
      push_cast
      linarith
    simp only [maxLong]
    omega
  simp only [Double.castLong, Int.floor_intCast, Int.cast_lt_zero, not_lt.mpr hrint, if_false]
  have hlower : minLong ≤ rint v := le_trans (by decide) hrint
  rw [if_pos ⟨hlower, hupper⟩]
  exact hrint

theorem addedSupport_nonneg (until? : Option DateTime) (v : GateVerdict) :
    0 ≤ addedSupport until? v := by
  have hstart := v.windowStart.range
  have hend := v.windowEnd.range
  unfold addedSupport
  dsimp only
  obtain ⟨b, hb, hspan⟩ := exists_span (d := v.windowEnd.ms - v.windowStart.ms)
    (by rw [abs_lt]; omega)
  rw [hspan]
  have hshare : ∃ x, F64.div (F64.ofInt v.qualifiedSupportMs) (some (.finite b)) = some x := by
    rw [F64.ofInt]
    cases Double.ofInt v.qualifiedSupportMs with
    | finite q => exact ⟨Double.ofRat (q / b), by simp [F64.div, hb, F64.ofRat]⟩
    | infinite s => exact ⟨_, rfl⟩
  obtain ⟨x, hx⟩ := hshare
  obtain ⟨r, hr, hr', hfraction⟩ := exists_fraction x
  rw [hx, hfraction]
  generalize hadded : (if (if (until?.getD v.windowStart).ms < v.windowStart.ms then
    v.windowStart.ms else (until?.getD v.windowStart).ms) < v.windowEnd.ms then v.windowEnd.ms -
      (if (until?.getD v.windowStart).ms < v.windowStart.ms then v.windowStart.ms else
        (until?.getD v.windowStart).ms) else 0) = added
  have hbounds : 0 ≤ added ∧ added ≤ 2 ^ 49 := by
    rw [← hadded]
    split
    · split <;> omega
    · omega
  rw [F64.ofInt, Double.ofInt_of_abs_lt (by rw [abs_lt]; omega)]
  refine castLong_round_nonneg (by exact_mod_cast hbounds.1) ?_ hr hr'
  have hle : (added : ℚ) ≤ ((2 ^ 49 : ℤ) : ℚ) := by exact_mod_cast hbounds.2
  refine hle.trans ?_
  norm_num

/-! ## What a verdict moves -/

/-- What is compared of a frame: its times, its family and its counters. -/
structure Outline where
  family : String
  openedAt : DateTime
  closedAt : Option DateTime
  windowCount : ℤ
  qualifiedSupportMs : ℤ
  candidateWindows : ℕ
  deriving DecidableEq

def FrameRow.outline (r : FrameRow) : Outline :=
  { family := r.frame.family, openedAt := r.frame.openedAt, closedAt := r.frame.closedAt,
    windowCount := r.frame.windowCount, qualifiedSupportMs := r.frame.qualifiedSupportMs,
    candidateWindows := r.frame.candidateWindows }

def FrameTable.outlines (t : FrameTable) : List Outline := t.rows.map FrameRow.outline

def tally (os : List Outline) : ℕ × ℕ × ℤ × ℤ :=
  (os.length, (os.filter fun o => o.closedAt.isSome).length, (os.map Outline.windowCount).sum,
    (os.map Outline.qualifiedSupportMs).sum)

theorem tally_append (os os' : List Outline) : tally (os ++ os') = tally os + tally os' := by
  simp [tally]

/-- The verdict leaves the windows, the support and the number of rows as they are. -/
def Unmoved (n : ℤ) (o : Option FrameRow) (v : GateVerdict) : Prop :=
  match o with
  | none => v.isFault = false
  | some r => v.recovers = false ∧ (v.isFault = true →
      disjoint r.frame.supportUntil v = false ∧ addedSupport r.frame.supportUntil v = 0 ∧
      (r.frame.family ≠ v.family → held r.frame v.family < max 1 n))

section Moves

variable {n : ℤ} {vs : List GateVerdict} {v : GateVerdict} {cs cs' : List FrameRow}
  {o o' : Option FrameRow} {next next' : ℕ}

theorem GateVerdict.not_recovers_of_fault (h : v.isFault = true) : v.recovers = false := by
  cases hv : v.recovers with
  | false => rfl
  | true =>
    rw [GateVerdict.not_fault_of_recovers hv] at h
    cases h

theorem tally_rows (cs : List FrameRow) (o : Option FrameRow) :
    tally ((cs ++ o.toList).map FrameRow.outline) =
      tally (cs.map FrameRow.outline) + tally (o.toList.map FrameRow.outline) := by
  rw [List.map_append, tally_append]

theorem tally_grown (r r' : FrameRow) (windows : ℤ) {support : ℤ} (hw : 0 ≤ windows)
    (hs : 0 ≤ support) (hclosed : r'.frame.closedAt = r.frame.closedAt)
    (hwindows : r'.frame.windowCount = r.frame.windowCount + windows)
    (hsupport : r'.frame.qualifiedSupportMs = r.frame.qualifiedSupportMs + support) :
    tally [r.outline] ≤ tally [r'.outline] ∧
      (tally [r.outline] = tally [r'.outline] ↔ windows = 0 ∧ support = 0) := by
  have hr : tally [r.outline] = (1, (if r.frame.closedAt.isSome then 1 else 0),
      r.frame.windowCount, r.frame.qualifiedSupportMs) := by
    unfold tally
    rw [List.filter_cons]
    split <;> simp_all [FrameRow.outline]
  have hr' : tally [r'.outline] = (1, (if r.frame.closedAt.isSome then 1 else 0),
      r.frame.windowCount + windows, r.frame.qualifiedSupportMs + support) := by
    unfold tally
    rw [List.filter_cons]
    split <;> simp_all [FrameRow.outline]
  rw [hr, hr']
  simp only [Prod.mk_le_mk, le_refl, true_and, Prod.mk.injEq]
  omega

theorem Step.tally (h : Step n cs next v o cs' o' next') (hopen : ∀ r ∈ o, r.isOpen = true) :
    tally ((cs ++ o.toList).map FrameRow.outline) ≤
      tally ((cs' ++ o'.toList).map FrameRow.outline) ∧
    (tally ((cs ++ o.toList).map FrameRow.outline) =
      tally ((cs' ++ o'.toList).map FrameRow.outline) ↔ Unmoved n o v) := by
  rw [tally_rows, tally_rows]
  cases h with
  | ignored hv => exact ⟨le_rfl, iff_of_true rfl hv⟩
  | opened hv =>
    rw [add_le_add_iff_left, add_right_inj]
    constructor
    · simp [EventFrames.tally, FrameRow.outline, GateVerdict.opens, openFrame]
    · refine iff_of_false ?_ (by simp [Unmoved, hv])
      simp [EventFrames.tally]
  | @noted r availability hv =>
    refine ⟨le_rfl, iff_of_true rfl ?_⟩
    simp only [GateVerdict.inconclusive, Bool.and_eq_true, Bool.not_eq_true'] at hv
    exact ⟨hv.2, fun hfault => by rw [hv.1] at hfault; cases hfault⟩
  | @recovered r hv =>
    have hr : r.frame.closedAt = none := by simpa [FrameRow.isOpen] using hopen r rfl
    rw [List.map_append, tally_append, add_assoc, add_le_add_iff_left, add_right_inj]
    constructor
    · simp [EventFrames.tally, FrameRow.outline, closeFrame, hr]
    · refine iff_of_false ?_ (by simp [Unmoved, hv])
      simp [EventFrames.tally, FrameRow.outline, closeFrame, hr]
  | @changed r hv hne hheld =>
    have hr : r.frame.closedAt = none := by simpa [FrameRow.isOpen] using hopen r rfl
    rw [List.map_append, tally_append, add_assoc, add_le_add_iff_left, add_right_inj]
    constructor
    · simp [EventFrames.tally, FrameRow.outline, closeFrame, GateVerdict.opens, openFrame, hr]
    · refine iff_of_false ?_ ?_
      · simp [EventFrames.tally]
      · rintro ⟨-, hmoved⟩
        exact absurd hheld (not_le.mpr ((hmoved hv).2.2 hne))
  | @pending r hv hne hheld =>
    have hadded := addedSupport_nonneg r.frame.supportUntil v
    have hrecovers : v.recovers = false := GateVerdict.not_recovers_of_fault hv
    have hgrown := tally_grown r ⟨r.id, r.frame.pending v⟩
      (if disjoint r.frame.supportUntil v then 1 else 0) (by split <;> omega) hadded rfl rfl rfl
    rw [add_le_add_iff_left, add_right_inj]
    refine ⟨hgrown.1, hgrown.2.trans ?_⟩
    simp [Unmoved, hrecovers, hv, hheld]
  | @extended r hv heq =>
    have hadded := addedSupport_nonneg r.frame.supportUntil v
    have hrecovers : v.recovers = false := GateVerdict.not_recovers_of_fault hv
    have hgrown := tally_grown r ⟨r.id, r.frame.extended v⟩
      (if disjoint r.frame.supportUntil v then 1 else 0) (by split <;> omega) hadded rfl rfl rfl
    rw [add_le_add_iff_left, add_right_inj]
    refine ⟨hgrown.1, hgrown.2.trans ?_⟩
    simp [Unmoved, hrecovers, hv, heq]

end Moves

/-! ## Runs that move nothing -/

/-- Every fault verdict starts inside the covered time and adds no support to it. -/
def Covered : Option DateTime → List GateVerdict → Prop
  | _, [] => True
  | u, v :: rest =>
      if v.isFault then
        disjoint u v = false ∧ addedSupport u v = 0 ∧ Covered (some (extendUntil u v)) rest
      else Covered u rest

/-- After the history, no prefix of the verdicts ends in a run of another family that is long enough
to change the episode's. -/
def RunsShort (n : ℤ) (family : String) (history ws : List GateVerdict) : Prop :=
  ∀ p, p <+: ws → (pendingWindows family (faultFamilies (history ++ p)) : ℤ) < max 1 n

/-- Delivered after the verdicts `vs`, the verdicts `ws` move no row, window or support. -/
def Still (n : ℤ) (vs : List GateVerdict) (o : Option FrameRow) (ws : List GateVerdict) : Prop :=
  match o with
  | none => ∀ v ∈ ws, v.isFault = false
  | some r => (∀ v ∈ ws, v.recovers = false) ∧ Covered r.frame.supportUntil ws ∧
      RunsShort n r.frame.family (lifetimeOf n r.id vs) ws

def FrameRow.steady (r : FrameRow) : ℕ × Outline := (r.id, { r.outline with candidateWindows := 0 })

section Runs

variable {n : ℤ} {family : String} {history vs ws : List GateVerdict} {v : GateVerdict}
  {cs cs' : List FrameRow} {o o' : Option FrameRow} {next next' : ℕ}

theorem runsShort_cons : RunsShort n family history (v :: ws) ↔
    (pendingWindows family (faultFamilies history) : ℤ) < max 1 n ∧
      RunsShort n family (history ++ [v]) ws := by
  constructor
  · intro h
    refine ⟨by simpa using h [] (List.nil_prefix), fun p hp => ?_⟩
    have hcons := h (v :: p) (List.cons_prefix_cons.mpr ⟨rfl, hp⟩)
    simpa using hcons
  · rintro ⟨hnil, h⟩ p hp
    rcases List.prefix_cons_iff.mp hp with rfl | ⟨p', rfl, hp'⟩
    · simpa using hnil
    · have hcons := h p' hp'
      simpa using hcons

theorem runsShort_nil : RunsShort n family history [] ↔
    (pendingWindows family (faultFamilies history) : ℤ) < max 1 n := by
  constructor
  · intro h
    simpa using h [] List.nil_prefix
  · intro h p hp
    rw [List.prefix_nil.mp hp, List.append_nil]
    exact h

theorem runsShort_start (h : RunsShort n family history ws) :
    (pendingWindows family (faultFamilies history) : ℤ) < max 1 n := by
  simpa using h [] List.nil_prefix

theorem Follows.still_cons (h : Follows n vs cs o)
    (hstep : Step n cs (FrameTable.after n vs).nextId v o cs' o'
      (FrameTable.after n (vs ++ [v])).nextId)
    (h' : Holds (FrameTable.after n (vs ++ [v])) cs' o') :
    Unmoved n o v ∧ Still n (vs ++ [v]) o' ws ↔ Still n vs o (v :: ws) := by
  have hlife {q : FrameRow} (hq : q ∈ o) := lifetimeOf_touched h.holds h' q.id (Or.inl ⟨q, hq, rfl⟩)
  have hshort {q : FrameRow} (hq : q ∈ o) : (pendingWindows q.frame.family
      (faultFamilies (lifetimeOf n q.id vs)) : ℤ) < max 1 n := by
    rw [← (h.candidate q hq).windows]
    exact (h.candidate q hq).short
  have hheldEq {q : FrameRow} (hq : q ∈ o) := (h.candidate q hq).held_eq (v := v)
  generalize (FrameTable.after n (vs ++ [v])).nextId = next' at hstep
  cases hstep with
  | ignored hv => simp [Unmoved, Still, hv]
  | opened hv => simp [Unmoved, Still, hv]
  | @noted r availability hv =>
    have hfault := GateVerdict.not_fault_of_inconclusive hv
    simp only [GateVerdict.inconclusive, Bool.and_eq_true, Bool.not_eq_true'] at hv
    simp only [Unmoved, Still, Covered, runsShort_cons, List.forall_mem_cons, hv.2, hfault,
      hlife rfl, hshort rfl, FrameState.noted, true_and, Bool.false_eq_true, false_implies, if_false]
  | @recovered r hv => simp [Unmoved, Still, hv]
  | @changed r hv hne hheld =>
    refine iff_of_false ?_ ?_
    · rintro ⟨⟨-, hmoved⟩, -⟩
      exact absurd hheld (not_le.mpr ((hmoved hv).2.2 hne))
    · rintro ⟨-, -, hruns⟩
      have hrun := runsShort_start (runsShort_cons.mp hruns).2
      rw [← hlife rfl] at hrun
      rw [hheldEq rfl hv hne, ← hlife rfl] at hheld
      exact absurd hheld (not_le.mpr hrun)
  | @pending r hv hne hheld =>
    have hrecovers := GateVerdict.not_recovers_of_fault hv
    simp only [Unmoved, Still, Covered, runsShort_cons, List.forall_mem_cons, hrecovers, hv,
      hlife rfl, hshort rfl, hheld, FrameState.pending, extend, true_and, if_true, forall_const,
      implies_true, and_true]
    tauto
  | @extended r hv heq =>
    have hrecovers := GateVerdict.not_recovers_of_fault hv
    have hrun := heq ▸ hshort (q := r) rfl
    simp only [Unmoved, Still, Covered, runsShort_cons, List.forall_mem_cons, hrecovers, hv,
      hlife rfl, hrun, heq, FrameState.extended, extend, true_and, if_true, forall_const,
      ne_eq, not_true_eq_false, false_implies, and_true]
    tauto

theorem Step.steady (h : Step n cs next v o cs' o' next') (hmoved : Unmoved n o v) :
    cs' = cs ∧ o'.map FrameRow.steady = o.map FrameRow.steady := by
  cases h with
  | ignored hv => exact ⟨rfl, rfl⟩
  | opened hv =>
    rw [Unmoved, hv] at hmoved
    cases hmoved
  | noted availability hv => exact ⟨rfl, rfl⟩
  | recovered hv =>
    rw [Unmoved, hv] at hmoved
    cases hmoved.1
  | changed hv hne hheld => exact absurd hheld (not_le.mpr ((hmoved.2 hv).2.2 hne))
  | pending hv hne hheld =>
    obtain ⟨hdisjoint, hadded, -⟩ := hmoved.2 hv
    refine ⟨rfl, ?_⟩
    simp [FrameRow.steady, FrameRow.outline, FrameState.pending, extend, hdisjoint, hadded]
  | extended hv heq =>
    obtain ⟨hdisjoint, hadded, -⟩ := hmoved.2 hv
    refine ⟨rfl, ?_⟩
    simp [FrameRow.steady, FrameRow.outline, FrameState.extended, extend, hdisjoint, hadded]

theorem Follows.run (h : Follows n vs cs o) (ws : List GateVerdict) :
    ∃ cs' o', Follows n (vs ++ ws) cs' o' ∧
      tally ((cs ++ o.toList).map FrameRow.outline) ≤
        tally ((cs' ++ o'.toList).map FrameRow.outline) ∧
      (tally ((cs ++ o.toList).map FrameRow.outline) =
        tally ((cs' ++ o'.toList).map FrameRow.outline) ↔ Still n vs o ws) ∧
      (Still n vs o ws → cs' = cs ∧ o'.map FrameRow.steady = o.map FrameRow.steady ∧
        ∀ r ∈ o, lifetimeOf n r.id (vs ++ ws) = lifetimeOf n r.id vs ++ ws) := by
  induction ws generalizing vs cs o with
  | nil =>
    rw [List.append_nil]
    refine ⟨cs, o, h, le_rfl, iff_of_true rfl ?_, fun _ => ⟨rfl, rfl, by simp⟩⟩
    cases o with
    | none => simp [Still]
    | some r =>
      refine ⟨by simp, trivial, runsShort_nil.mpr ?_⟩
      rw [← (h.candidate r rfl).windows]
      exact (h.candidate r rfl).short
  | cons v ws ih =>
    obtain ⟨cs₁, o₁, hstep, hholds⟩ := exists_step n h.holds v
    rw [← FrameTable.after_concat] at hstep hholds
    have h₁ := h.step hstep hholds
    obtain ⟨hle, heq⟩ := hstep.tally h.holds.standing
    have hcons : Unmoved n o v ∧ Still n (vs ++ [v]) o₁ ws ↔ Still n vs o (v :: ws) :=
      h.still_cons hstep hholds
    obtain ⟨cs', o', h', hle', heq', hsteady⟩ := ih h₁
    rw [List.append_assoc, List.singleton_append] at h' hsteady
    refine ⟨cs', o', h', hle.trans hle', ?_, ?_⟩
    · rw [← hcons, ← heq, ← heq']
      constructor
      · intro hall
        have hfirst := le_antisymm hle (hall ▸ hle')
        exact ⟨hfirst, hfirst ▸ hall⟩
      · exact fun hboth => hboth.1.trans hboth.2
    · intro hstill
      obtain ⟨hmoved, hrest⟩ := hcons.mpr hstill
      obtain ⟨hcs, ho⟩ := hstep.steady hmoved
      obtain ⟨hcs', ho', hlife⟩ := hsteady hrest
      refine ⟨hcs'.trans hcs, ho'.trans ho, fun r hr => ?_⟩
      have hr₁ : ∃ q ∈ o₁, q.id = r.id := by
        rw [Option.mem_def.mp hr] at ho
        obtain ⟨q, rfl, hq⟩ := Option.map_eq_some_iff.mp ho
        exact ⟨q, rfl, congrArg Prod.fst hq⟩
      obtain ⟨q, hq, hid⟩ := hr₁
      rw [← hid, hlife q hq, hid, lifetimeOf_touched h.holds hholds r.id (Or.inl ⟨r, hr, rfl⟩),
        List.append_assoc, List.singleton_append]

end Runs

/-- Delivered after the verdicts `vs`, the verdicts `ws` move no row, window or support, and leave
the run of another family as long as it was. -/
def Absorbed (n : ℤ) (vs ws : List GateVerdict) : Prop :=
  Still n vs (FrameTable.after n vs).readOpen ws ∧
  ∀ r ∈ (FrameTable.after n vs).readOpen,
    pendingWindows r.frame.family (faultFamilies (lifetimeOf n r.id vs ++ ws)) =
      pendingWindows r.frame.family (faultFamilies (lifetimeOf n r.id vs))

/-- Delivering the last verdicts again leaves every frame as it was exactly when they are absorbed:
none opens or recovers a frame, every fault window starts in the covered time and adds no support,
and the run of another family stays short and ends as long as before. -/
theorem redelivery_keeps_frames_iff (n : ℤ) (pre suf : List GateVerdict) :
    (FrameTable.after n (pre ++ suf ++ suf)).outlines = (FrameTable.after n (pre ++ suf)).outlines ↔
      Absorbed n (pre ++ suf) suf := by
  obtain ⟨cs, o, h⟩ := exists_follows n (pre ++ suf)
  obtain ⟨cs', o', h', -, htally, hsteady⟩ := h.run suf
  unfold Absorbed FrameTable.outlines
  rw [h.holds.readOpen, h.holds.rows, h'.holds.rows]
  constructor
  · intro hall
    have hstill := htally.mp (congrArg tally hall.symm)
    obtain ⟨rfl, ho, hlife⟩ := hsteady hstill
    refine ⟨hstill, fun r hr => ?_⟩
    rw [Option.mem_def.mp hr] at ho hall
    obtain ⟨q, rfl, hq⟩ := Option.map_eq_some_iff.mp ho
    have houtline : q.outline = r.outline := by simpa using hall
    have hid : q.id = r.id := congrArg Prod.fst hq
    have hwindows : q.frame.candidateWindows = r.frame.candidateWindows :=
      congrArg Outline.candidateWindows houtline
    have hfamily : q.frame.family = r.frame.family := congrArg Outline.family houtline
    rw [(h'.candidate q rfl).windows, (h.candidate r hr).windows, hid, hfamily, hlife r hr]
      at hwindows
    exact hwindows
  · rintro ⟨hstill, hrun⟩
    obtain ⟨rfl, ho, hlife⟩ := hsteady hstill
    cases o with
    | none =>
      rw [Option.map_none, Option.map_eq_none_iff] at ho
      rw [ho]
    | some r =>
      obtain ⟨q, rfl, hq⟩ := Option.map_eq_some_iff.mp ho
      have hid : q.id = r.id := congrArg Prod.fst hq
      have hfamily : q.frame.family = r.frame.family :=
        congrArg (fun p => p.2.family) hq
      have hwindows : q.frame.candidateWindows = r.frame.candidateWindows := by
        rw [(h'.candidate q rfl).windows, (h.candidate r rfl).windows, hid, hfamily, hlife r rfl,
          hrun r rfl]
      have houtline : q.outline = r.outline := by
        have hrest := congrArg Prod.snd hq
        simp only [FrameRow.steady, FrameRow.outline, Outline.mk.injEq] at hrest ⊢
        exact ⟨hrest.1, hrest.2.1, hrest.2.2.1, hrest.2.2.2.1, hrest.2.2.2.2.1, hwindows⟩
      simp [houtline]

def stiction : GateVerdict := { oscillation with diagnosis := some "DETECTED_STICTION" }

/-- A verdict of another family that is delivered again is counted twice. -/
theorem redelivery_counts_twice : ¬ ∀ (n : ℤ) (pre suf : List GateVerdict),
    (∀ v ∈ pre ++ suf, v.isFault = true) →
    (FrameTable.after n (pre ++ suf ++ suf)).outlines =
      (FrameTable.after n (pre ++ suf)).outlines := by
  intro h
  have hsame := h 3 [oscillation] [stiction] (by decide)
  revert hsame
  decide +kernel

end OpenBridge.EventFrames
