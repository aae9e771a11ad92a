import OpenBridge.Identity.DatasetIdentity

/-!
# Short windows: data quality

The data-quality part of `ShortFeatureCalculator.computeShortFeatures` (gate 0).  The samples of the
window are sorted and reduced to the first of each time before anything is counted.
-/

namespace OpenBridge.ShortWindow

open OpenBridge.Foundation
open OpenBridge.Identity (AttachedSample SignalMath.filterHalfOpen)
open OpenBridge.Samples (CplmNormalizedSample javaTrim)

inductive QualityWord
  | good | uncertain | bad | unknown
  deriving DecidableEq

/-- `normalizedQuality`: anything outside the vocabulary is unknown. -/
def normalizedQuality (s : CplmNormalizedSample) : QualityWord :=
  match toUpperRoot (javaTrim s.quality) with
  | "GOOD" => .good
  | "UNCERTAIN" => .uncertain
  | "BAD" => .bad
  | _ => .unknown

/-- `Math.round` of a double: the floor of the value plus a half, within a `long`. -/
def mathRound : F64 → ℤ
  | none => 0
  | some (.finite q) => saturateLong ⌊q + 1 / 2⌋
  | some (.infinite negative) => if negative then minLong else maxLong

/-- `inferSamplePeriodSec`: the median of the positive intervals, five seconds without one. -/
def inferSamplePeriodSec (samples : List AttachedSample) : F64 :=
  let times := samples.map AttachedSample.eventTsMs
  let diffs := ((times.zip times.tail).map fun p => p.2 - p.1).filter (0 < ·)
  let seconds := (diffs.map fun d => F64.div (F64.ofInt d) (F64.ofInt 1000)).insertionSort
    fun a b => F64.le a b = true
  if samples.length < 2 then F64.ofInt 5 else seconds.getD (seconds.length / 2) (F64.ofInt 5)

/-- `declaredGridSec`: the first declared grid, or zero. -/
def declaredGridSec (samples : List AttachedSample) : F64 :=
  F64.ofInt (((samples.find? fun s => 0 < s.sample.gridSeconds).map fun s =>
    s.sample.gridSeconds).getD 0)

def expectedSamples (samples : List AttachedSample) (windowStartMs windowEndMs : ℤ) : ℤ :=
  let windowSec := max 1 ((windowEndMs - windowStartMs).tdiv 1000)
  let declared := declaredGridSec samples
  let expectedBasis := if F64.le declared (F64.ofInt 0) then inferSamplePeriodSec samples
    else declared
  if F64.lt (F64.ofInt 0) expectedBasis then
    wrap32 (max 1 (mathRound (F64.div (F64.ofInt windowSec) expectedBasis)))
  else max 1 samples.length

def duplicateTs (seen : List ℤ) : List ℤ → ℕ
  | [] => 0
  | t :: rest => (if t ∈ seen then 1 else 0) + duplicateTs (t :: seen) rest

def share (count n : ℕ) : F64 :=
  if 0 < n then F64.div (F64.ofInt count) (F64.ofInt n) else F64.ofInt 0

inductive GateStatus
  | pass | warn | fail
  deriving DecidableEq

structure Gate0Limits where
  g0CoverageMin : F64
  g0CoveragePassMin : F64
  g0BadFractionMax : F64

structure Gate0Result where
  samplePeriodSec : F64
  expectedSampleCount : ℤ
  sampleCount : ℕ
  completeness : F64
  badQualityPct : F64
  unknownQualityPct : F64
  duplicateTimestamps : ℕ
  gate0Status : GateStatus
  gate0Reason : String

def gate0Status (limits : Gate0Limits) (completeness badQualityPct : F64) (duplicates : ℕ) :
    GateStatus :=
  if F64.le (F64.ofRat (1 / 2)) badQualityPct then .fail
  else if F64.le limits.g0CoveragePassMin completeness ∧
      F64.lt badQualityPct limits.g0BadFractionMax ∧ duplicates = 0 then .pass
  else if F64.le limits.g0CoverageMin completeness then .warn
  else .fail

def gate0Reason (status : GateStatus) (badQualityPct : F64) (bad unknown : ℕ) : String :=
  if status = .fail then
    if F64.le (F64.ofRat (1 / 2)) badQualityPct then
      if bad ≤ unknown * 2 then "QUALITY_UNKNOWN" else "BAD_QUALITY"
    else "INCOMPLETE"
  else ""

/-- The data-quality part of `computeShortFeatures`. -/
def computeShortFeatures (rawSamples : List AttachedSample) (windowStartMs windowEndMs : ℤ)
    (limits : Gate0Limits) : Gate0Result :=
  let samples := SignalMath.filterHalfOpen rawSamples windowStartMs windowEndMs
  let n := samples.length
  let expected := expectedSamples samples windowStartMs windowEndMs
  let completeness := F64.div (F64.ofInt n) (F64.ofInt expected)
  let bad := samples.countP fun s => normalizedQuality s.sample ≠ .good
  let unknown := samples.countP fun s => normalizedQuality s.sample = .unknown
  let duplicates := duplicateTs [] (samples.map AttachedSample.eventTsMs)
  let status := gate0Status limits completeness (share bad n) duplicates
  { samplePeriodSec := inferSamplePeriodSec samples
    expectedSampleCount := expected
    sampleCount := n
    completeness := completeness
    badQualityPct := share bad n
    unknownQualityPct := share unknown n
    duplicateTimestamps := duplicates
    gate0Status := status
    gate0Reason := gate0Reason status (share bad n) bad unknown }

/-! ## The times of a window -/

variable {raw raw' : List AttachedSample} {start stop : ℤ} {limits : Gate0Limits}

def inWindow (raw : List AttachedSample) (start stop : ℤ) : List ℤ :=
  (raw.filter fun s => start ≤ s.eventTsMs ∧ s.eventTsMs < stop).map AttachedSample.eventTsMs

theorem duplicateTs_eq_zero {seen times : List ℤ} :
    duplicateTs seen times = 0 ↔ times.Nodup ∧ ∀ t ∈ times, t ∉ seen := by
  induction times generalizing seen with
  | nil => exact iff_of_true rfl ⟨List.nodup_nil, nofun⟩
  | cons t rest ih =>
    unfold duplicateTs
    rw [Nat.add_eq_zero_iff, ih, List.nodup_cons]
    constructor
    · rintro ⟨ht, hrest, hseen⟩
      refine ⟨⟨fun hmem => hseen t hmem List.mem_cons_self, hrest⟩, List.forall_mem_cons.mpr ⟨?_, ?_⟩⟩
      · intro hmem
        rw [if_pos hmem] at ht
        cases ht
      · exact fun u hu hmem => hseen u hu (List.mem_cons_of_mem _ hmem)
    · rintro ⟨⟨ht, hrest⟩, hseen⟩
      obtain ⟨htseen, hseen⟩ := List.forall_mem_cons.mp hseen
      refine ⟨if_neg htseen, hrest, fun u hu hmem => ?_⟩
      rcases List.mem_cons.mp hmem with rfl | hmem
      · exact ht hu
      · exact hseen u hu hmem

theorem times_nodup (raw : List AttachedSample) (start stop : ℤ) :
    ((SignalMath.filterHalfOpen raw start stop).map AttachedSample.eventTsMs).Nodup :=
  nodup_map_firstsBy _

theorem mem_times {t : ℤ} :
    t ∈ (SignalMath.filterHalfOpen raw start stop).map AttachedSample.eventTsMs ↔
      t ∈ inWindow raw start stop := by
  unfold SignalMath.filterHalfOpen firstsBy inWindow
  rw [mem_map_firstsFrom, and_iff_left List.not_mem_nil, List.mem_map, List.mem_map]
  simp only [List.mem_insertionSort]

theorem length_filterHalfOpen (raw : List AttachedSample) (start stop : ℤ) :
    (SignalMath.filterHalfOpen raw start stop).length = (inWindow raw start stop).toFinset.card := by
  rw [← List.length_map (f := AttachedSample.eventTsMs), ← List.toFinset_card_of_nodup
    (times_nodup raw start stop)]
  congr 1
  ext t
  rw [List.mem_toFinset, List.mem_toFinset, mem_times]

theorem eq_of_perm_tied {xs ys : List AttachedSample} {k : ℤ} (h : xs.Perm ys)
    (hkey : ∀ x ∈ xs, x.eventTsMs = k) (hnodup : (xs.map AttachedSample.eventTsMs).Nodup) :
    xs = ys := by
  match xs with
  | [] => exact (List.nil_perm.mp h).symm
  | [x] => exact (List.singleton_perm.mp h)
  | x :: y :: rest =>
    have hne := (List.nodup_cons.mp hnodup).1
    rw [List.map_cons, hkey x List.mem_cons_self,
      hkey y (List.mem_cons_of_mem _ List.mem_cons_self)] at hne
    exact absurd List.mem_cons_self hne

theorem filterHalfOpen_perm (hperm : raw.Perm raw') (hnodup : (inWindow raw start stop).Nodup) :
    SignalMath.filterHalfOpen raw start stop = SignalMath.filterHalfOpen raw' start stop := by
  have hinside := hperm.filter fun s => decide (start ≤ s.eventTsMs ∧ s.eventTsMs < stop)
  have hsorted : ∀ l : List AttachedSample,
      (l.insertionSort fun a b => a.eventTsMs ≤ b.eventTsMs).Pairwise
        fun a b => a.eventTsMs ≤ b.eventTsMs :=
    List.pairwise_insertionSort (fun a b : AttachedSample => a.eventTsMs ≤ b.eventTsMs)
  unfold SignalMath.filterHalfOpen
  congr 1
  refine eq_of_filter_eq (hsorted _) (hsorted _) fun k => ?_
  rw [filter_insertionSort, filter_insertionSort]
  have hkeys : (((raw.filter fun s => decide (start ≤ s.eventTsMs ∧ s.eventTsMs < stop)).filter
      fun s => decide (s.eventTsMs = k)).map AttachedSample.eventTsMs).Nodup :=
    hnodup.sublist (List.filter_sublist.map _)
  exact eq_of_perm_tied (hinside.filter _) (fun s hs => of_decide_eq_true (List.mem_filter.mp hs).2)
    hkeys

/-! ## Shares -/

theorem ofInt_eq {n : ℕ} (h : n < 2 ^ 53) : F64.ofInt n = some (.finite n) := by
  have habs : |(n : ℤ)| < 2 ^ 53 := by
    rw [abs_of_nonneg (Int.natCast_nonneg n)]
    exact_mod_cast h
  exact congrArg some (by simpa using Double.ofInt_of_abs_lt habs)

theorem div_counts {k n : ℕ} (hn : 0 < n) (hk : k < 2 ^ 53) (hn' : n < 2 ^ 53) :
    F64.div (F64.ofInt k) (F64.ofInt n) = F64.ofRat (k / n) := by
  rw [ofInt_eq hk, ofInt_eq hn', F64.div, if_neg (by exact_mod_cast hn.ne')]

theorem ofRat_one : F64.ofRat 1 = F64.ofInt 1 := rfl

theorem ofRat_zero : F64.ofRat 0 = F64.ofInt 0 := rfl

theorem ratio_mono {j k n : ℕ} (h : j ≤ k) : ((j : ℚ) / n) ≤ k / n :=
  div_le_div_of_nonneg_right (by exact_mod_cast h) (Nat.cast_nonneg n)

def IsFraction (x : F64) : Prop := F64.le (F64.ofInt 0) x = true ∧ F64.le x (F64.ofInt 1) = true

theorem ratio_range {k n : ℕ} (hn : 0 < n) (hk : k ≤ n) (hn' : n < 2 ^ 53) :
    IsFraction (F64.div (F64.ofInt k) (F64.ofInt n)) := by
  have hnonneg : (0 : ℚ) ≤ (k : ℚ) / n := div_nonneg (Nat.cast_nonneg k) (Nat.cast_nonneg n)
  have hone : (k : ℚ) / n ≤ 1 := (div_le_one (by exact_mod_cast hn)).mpr (by exact_mod_cast hk)
  rw [IsFraction, div_counts hn (hk.trans_lt hn') hn', ← ofRat_zero, ← ofRat_one]
  exact ⟨F64.ofRat_le le_rfl hnonneg, F64.ofRat_le hnonneg hone⟩

theorem one_lt_ratio {k n : ℕ} (hn : 0 < n) (hk : n < k) (hk' : k < 2 ^ 53) (hn' : n < 2 ^ 31) :
    F64.le (F64.div (F64.ofInt k) (F64.ofInt n)) (F64.ofInt 1) = false := by
  have hpos : (0 : ℚ) < n := by exact_mod_cast hn
  have hstep : (1 : ℚ) + 1 / 2 ^ 31 ≤ (k : ℚ) / n := by
    rw [le_div_iff₀ hpos]
    have hk1 : (n : ℚ) + 1 ≤ k := by exact_mod_cast hk
    have hn1 : (n : ℚ) ≤ 2 ^ 31 := by exact_mod_cast hn'.le
    have hsmall : (n : ℚ) * (1 / 2 ^ 31) ≤ 1 := by
      rw [mul_one_div, div_le_one (by positivity)]
      exact hn1
    linarith
  have habove : F64.lt (F64.ofInt 1) (F64.ofRat (1 + 1 / 2 ^ 31)) = true ∧
      F64.lt (F64.ofRat (1 + 1 / 2 ^ 31)) (F64.ofInt 1) = false := by decide +kernel
  have hmono : F64.lt (F64.ofRat (k / n)) (F64.ofRat (1 + 1 / 2 ^ 31)) = false :=
    Double.ofRat_mono (by positivity) hstep
  rw [div_counts hn hk' (hn'.trans (by norm_num))]
  by_contra hle
  unfold F64.le at hle
  rw [Bool.not_eq_false, decide_eq_true_eq] at hle
  rcases hle with hlt | ⟨heq, -⟩
  · have hback : F64.lt (F64.ofRat (1 + 1 / 2 ^ 31)) (F64.ofInt 1) = true :=
      F64.lt_of_not_lt (Option.some_ne_none _) hmono hlt
    rw [habove.2] at hback
    cases hback
  · rw [heq, habove.1] at hmono
    cases hmono

/-! ## The laws of gate 0 -/

/-- What gate 0 promises about a window. -/
structure Gate0Laws (raw : List AttachedSample) (start stop : ℤ) (limits : Gate0Limits) : Prop where
  sampleCount : (computeShortFeatures raw start stop limits).sampleCount =
    (inWindow raw start stop).toFinset.card
  duplicates : (computeShortFeatures raw start stop limits).duplicateTimestamps =
    duplicateTs [] (inWindow raw start stop)
  completeness : IsFraction (computeShortFeatures raw start stop limits).completeness
  bad : IsFraction (computeShortFeatures raw start stop limits).badQualityPct
  unknown : IsFraction (computeShortFeatures raw start stop limits).unknownQualityPct ∧
    F64.le (computeShortFeatures raw start stop limits).unknownQualityPct
      (computeShortFeatures raw start stop limits).badQualityPct
  pass : (computeShortFeatures raw start stop limits).gate0Status = .pass →
    F64.le limits.g0CoveragePassMin (computeShortFeatures raw start stop limits).completeness ∧
      F64.lt (computeShortFeatures raw start stop limits).badQualityPct limits.g0BadFractionMax ∧
        duplicateTs [] (inWindow raw start stop) = 0
  fail : F64.le (F64.ofRat (1 / 2)) (computeShortFeatures raw start stop limits).badQualityPct →
    (computeShortFeatures raw start stop limits).gate0Status = .fail
  order : (inWindow raw start stop).Nodup → ∀ raw', raw.Perm raw' →
    computeShortFeatures raw' start stop limits = computeShortFeatures raw start stop limits

theorem unknown_le_bad (samples : List AttachedSample) :
    (samples.countP fun s => normalizedQuality s.sample = .unknown) ≤
      samples.countP fun s => normalizedQuality s.sample ≠ .good :=
  List.countP_mono_left fun s _ h => by
    rw [decide_eq_true_eq] at h
    rw [decide_eq_true_eq, h]
    exact nofun

theorem share_le {j k n : ℕ} (hjk : j ≤ k) (hk : k ≤ n) (hn : n < 2 ^ 53) :
    F64.le (share j n) (share k n) = true := by
  unfold share
  split
  · rename_i hpos
    rw [div_counts hpos (hjk.trans_lt (hk.trans_lt hn)) hn, div_counts hpos (hk.trans_lt hn) hn]
    exact F64.ofRat_le (div_nonneg (Nat.cast_nonneg j) (Nat.cast_nonneg n)) (ratio_mono hjk)
  · decide +kernel

theorem share_range {k n : ℕ} (hk : k ≤ n) (hn : n < 2 ^ 53) : IsFraction (share k n) := by
  unfold share
  split
  · rename_i hpos
    exact ratio_range hpos hk hn
  · exact ⟨by decide +kernel, by decide +kernel⟩

theorem gate0Status_pass {completeness bad : F64} {duplicates : ℕ}
    (h : gate0Status limits completeness bad duplicates = .pass) :
    F64.le limits.g0CoveragePassMin completeness ∧ F64.lt bad limits.g0BadFractionMax ∧
      duplicates = 0 := by
  unfold gate0Status at h
  split at h
  · cases h
  · split at h
    · rename_i hpass
      exact hpass
    · split at h
      · cases h
      · cases h

theorem duplicateTimestamps_eq_zero (raw : List AttachedSample) (start stop : ℤ)
    (limits : Gate0Limits) : (computeShortFeatures raw start stop limits).duplicateTimestamps = 0 :=
  duplicateTs_eq_zero.mpr ⟨times_nodup raw start stop, fun _ _ => List.not_mem_nil⟩

theorem expectedSamples_lt (samples : List AttachedSample) (start stop : ℤ)
    (hsize : samples.length < 2 ^ 31) : expectedSamples samples start stop < 2 ^ 31 := by
  have hwrap : ∀ n, wrap32 n < 2 ^ 31 := fun n => by
    simp only [wrap32, Int.bmod]
    omega
  have hone : max 1 (samples.length : ℤ) < 2 ^ 31 := by omega
  unfold expectedSamples
  dsimp only
  split_ifs
  · exact hwrap _
  · exact hone
  · exact hwrap _
  · exact hone

def factoryLimits : Gate0Limits :=
  ⟨F64.ofRat (95 / 100), F64.ofRat (98 / 100), F64.ofRat (5 / 100)⟩

def goodSample (t : ℤ) : AttachedSample := ⟨{ eventTsMs := t, quality := "GOOD" }, none⟩

end OpenBridge.ShortWindow
