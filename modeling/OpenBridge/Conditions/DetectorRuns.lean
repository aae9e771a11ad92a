import OpenBridge.Conditions.ConditionEpisodes

/-!
# Conditions: runs of the detector

One sample passes the gap check, the freeze gate and the limit gate in turn.
-/

namespace OpenBridge.Conditions

open OpenBridge.Foundation

namespace ConditionDetector

abbrev Input := ConditionProfile × ConditionSample

/-- `onSample`, with the profile of the moment. -/
def step (d : ConditionDetector) (x : Input) : ConditionDetector × List ConditionEvent :=
  onSample x.1 d x.2

def start (updateIntervalMs : ℤ) : ConditionDetector :=
  { new with updateIntervalMs := updateIntervalMs }

def allowedGap (d : ConditionDetector) : ℤ := max (3 * d.lastDeltaMs) 60000

/-- The time of a sample is a `long` other than `Long.MIN_VALUE`, and nothing the detector computes
from it and from the times it holds overflows. -/
def InRange (d : ConditionDetector) (x : Input) : Prop :=
  x.2.isValid → minLong < x.2.eventTsMs ∧ x.2.eventTsMs ≤ maxLong ∧
    3 * d.lastDeltaMs ≤ maxLong ∧
    (d.lastTsMs ≠ minLong → x.2.eventTsMs - d.lastTsMs ≤ maxLong) ∧
    ∀ kind, ∀ r ∈ d.runOf kind, x.2.eventTsMs - r ≤ maxLong

structure Inv (d : ConditionDetector) (log : List ConditionEvent) : Prop where
  tracks : Tracks d log d.runOf fun _ => d.lastTsMs
  grid : 0 < d.lastDeltaMs
  side : ∀ kind ∈ d.limitSide, kind = "LIMIT_LOW" ∨ kind = "LIMIT_HIGH"
  value : d.lastPv ≠ none → d.lastTsMs ≠ minLong

variable {d : ConditionDetector} {log : List ConditionEvent} {x : Input}

theorem inv_start (updateIntervalMs : ℤ) : Inv (start updateIntervalMs) [] where
  tracks := ⟨fun k => by
      have hrun : (start updateIntervalMs).runOf k = none := by simp [start, new, runOf]
      rw [hrun]
      exact Track.start _,
    fun k e he => by simp [start, new] at he, by simp⟩
  grid := by simp [start, new]
  side := by simp [start, new]
  value := by simp [start, new]

def Gap (d : ConditionDetector) (ts : ℤ) : Prop :=
  d.lastTsMs ≠ minLong ∧ d.allowedGap < ts - d.lastTsMs

instance (ts : ℤ) : Decidable (d.Gap ts) := instDecidableAnd

theorem wrap64_of_long {n : ℤ} (hlow : minLong ≤ n) (hhigh : n ≤ maxLong) : wrap64 n = n := by
  have hmin : minLong = -2 ^ 63 := rfl
  have hmax : maxLong = 2 ^ 63 - 1 := rfl
  exact wrap64_of_range (by omega) (by omega)

theorem observeGap_eq (h : Inv d log) (hr : InRange d x) (hvalid : x.2.isValid)
    (hlast : d.lastTsMs < x.2.eventTsMs) (hlow : minLong ≤ d.lastTsMs) :
    d.observeGap x.2.eventTsMs =
      if d.Gap x.2.eventTsMs then
        ({ (d.closeAll d.opened.keys (d.lastTsMs + d.lastDeltaMs) "SOURCE_GAP").1 with
            freezeRunStartMs := minLong, limitSide := none, limitRunStartMs := minLong,
            lastPv := none },
          (d.closeAll d.opened.keys (d.lastTsMs + d.lastDeltaMs) "SOURCE_GAP").2)
      else if d.lastTsMs = minLong then (d, [])
      else ({ d with lastDeltaMs := x.2.eventTsMs - d.lastTsMs }, []) := by
  obtain ⟨hts, hhigh, hthree, hdelta, -⟩ := hr hvalid
  have hgrid := h.grid
  have hmin : minLong = -2 ^ 63 := rfl
  unfold observeGap
  by_cases hset : d.lastTsMs = minLong
  · have hgap : ¬ d.Gap x.2.eventTsMs := fun hgap => hgap.1 hset
    rw [if_pos hset, if_neg hgap, if_pos hset]
  · have hd := hdelta hset
    have hdelta' : wrap64 (x.2.eventTsMs - d.lastTsMs) = x.2.eventTsMs - d.lastTsMs :=
      wrap64_of_long (by omega) hd
    have hthree' : wrap64 (3 * d.lastDeltaMs) = 3 * d.lastDeltaMs := wrap64_of_long (by omega) hthree
    rw [if_neg hset, if_neg hset]
    dsimp only
    rw [hdelta', hthree']
    by_cases hgap : d.Gap x.2.eventTsMs
    · have hlong := hgap.2
      unfold allowedGap at hlong
      have hend : wrap64 (d.lastTsMs + d.lastDeltaMs) = d.lastTsMs + d.lastDeltaMs :=
        wrap64_of_long (by omega) (by omega)
      rw [if_pos hlong, if_pos hgap, hend]
    · have hshort : ¬ max (3 * d.lastDeltaMs) 60000 < x.2.eventTsMs - d.lastTsMs :=
        fun hlong => hgap ⟨hset, hlong⟩
      rw [if_neg hshort, if_neg hgap, if_pos (by omega)]

/-- What holds between the gap check and the gates: the freeze gate may go on from the last sample
when its value was kept. -/
structure AfterGap (d : ConditionDetector) (log : List ConditionEvent) (before : ℤ) : Prop where
  tracks : Tracks d log d.runOf fun _ => before
  grid : 0 < d.lastDeltaMs
  side : ∀ kind ∈ d.limitSide, kind = "LIMIT_LOW" ∨ kind = "LIMIT_HIGH"
  value : d.lastPv ≠ none → d.lastTsMs = before ∧ before ≠ minLong

theorem afterGap (h : Inv d log) (hr : InRange d x) (hvalid : x.2.isValid)
    (hlast : d.lastTsMs < x.2.eventTsMs) (hlow : minLong ≤ d.lastTsMs) :
    ∃ before < x.2.eventTsMs, AfterGap (d.observeGap x.2.eventTsMs).1
      (log ++ (d.observeGap x.2.eventTsMs).2) before := by
  rw [observeGap_eq h hr hvalid hlast hlow]
  have hgrid := h.grid
  split
  · rename_i hgap
    obtain ⟨hset, hgap⟩ := hgap
    unfold allowedGap at hgap
    obtain ⟨opened, updates, heq, hget⟩ :=
      closeAll_cases d d.opened.keys (d.lastTsMs + d.lastDeltaMs) "SOURCE_GAP"
    have hclosed := h.tracks.closeAll "SOURCE_GAP" d.opened.keys_nodup (by omega)
      (le_refl (d.lastTsMs + d.lastDeltaMs))
    rw [heq] at hclosed ⊢
    have hnone : ∀ k, opened.get? k = none := by
      intro k
      rw [hget]
      split
      · rfl
      · rename_i hk
        exact Dict.get?_eq_none_iff.mpr hk
    refine ⟨d.lastTsMs + d.lastDeltaMs, by omega,
      ⟨fun k => ?_, fun k e he => ?_, hclosed.gates⟩, hgrid, by simp, by simp⟩
    · have hk := hclosed.kinds k
      dsimp only at hk ⊢
      rw [hnone] at hk ⊢
      have hrun : ∀ d' : ConditionDetector, d'.freezeRunStartMs = minLong → d'.limitSide = none →
          d'.runOf k = none := by
        intro d' hfreeze hside
        simp [runOf, hfreeze, hside]
      rw [hrun _ rfl rfl]
      exact hk.drop
    · dsimp only at he
      rw [hnone] at he
      exact absurd he (by simp)
  · rename_i hgap
    refine ⟨d.lastTsMs, hlast, ?_⟩
    split
    · rw [List.append_nil]
      exact ⟨h.tracks, hgrid, h.side, fun hv => ⟨rfl, h.value hv⟩⟩
    · rw [List.append_nil]
      exact ⟨h.tracks.congr rfl, by dsimp only; omega, h.side, fun hv => ⟨rfl, h.value hv⟩⟩

def tolerance (p : ConditionProfile) : F64 :=
  if F64.lt (F64.ofInt 0) p.freezeToleranceEu then p.freezeToleranceEu
  else F64.ofRat (1 / 10 ^ 9)

def Stays (d : ConditionDetector) (x : Input) : Prop :=
  d.lastPv ≠ none ∧ F64.le (F64.abs (F64.sub x.2.pv d.lastPv)) (tolerance x.1)

instance (x : Input) : Decidable (d.Stays x) := instDecidableAnd

def freezeStart (d : ConditionDetector) : ℤ :=
  if d.freezeRunStartMs = minLong then d.lastTsMs else d.freezeRunStartMs

theorem freeze_cases (d : ConditionDetector) (x : Input) :
    (d.Stays x ∧ F64.le x.1.freezeDwellS (seconds d.freezeStart x.2.eventTsMs) ∧
      ∃ evidence, d.freeze x.2 x.1 = advance { d with freezeRunStartMs := d.freezeStart }
        "G11" "FREEZE" d.freezeStart x.2.eventTsMs evidence) ∨
    (d.Stays x ∧ d.freeze x.2 x.1 = ({ d with freezeRunStartMs := d.freezeStart }, [])) ∨
    (¬ d.Stays x ∧ d.freeze x.2 x.1 =
      ({ (d.close "FREEZE" x.2.eventTsMs "PV_MOVED").1 with freezeRunStartMs := minLong },
        (d.close "FREEZE" x.2.eventTsMs "PV_MOVED").2)) ∨
    (¬ d.Stays x ∧ d.opened.get? "FREEZE" = none ∧
      d.freeze x.2 x.1 = ({ d with freezeRunStartMs := minLong }, [])) := by
  have heq : d.freeze x.2 x.1 =
      if d.Stays x then
        if F64.le x.1.freezeDwellS (seconds d.freezeStart x.2.eventTsMs) then
          advance { d with freezeRunStartMs := d.freezeStart } "G11" "FREEZE" d.freezeStart
            x.2.eventTsMs [("pv_value", .number x.2.pv),
              ("freeze_dwell_s", .number x.1.freezeDwellS),
              ("tolerance_eu", .number (tolerance x.1))]
        else ({ d with freezeRunStartMs := d.freezeStart }, [])
      else
        let closed := if d.opened.contains "FREEZE" then
          d.close "FREEZE" x.2.eventTsMs "PV_MOVED" else (d, [])
        ({ closed.1 with freezeRunStartMs := minLong }, closed.2) := rfl
  rw [heq]
  by_cases hstays : d.Stays x
  · rw [if_pos hstays]
    split
    · rename_i hdwell
      exact Or.inl ⟨hstays, hdwell, _, rfl⟩
    · exact Or.inr (Or.inl ⟨hstays, rfl⟩)
  · rw [if_neg hstays]
    dsimp only
    split
    · exact Or.inr (Or.inr (Or.inl ⟨hstays, rfl⟩))
    · rename_i hopen
      exact Or.inr (Or.inr (Or.inr ⟨hstays, Option.not_isSome_iff_eq_none.mp hopen, rfl⟩))

theorem freezeRun_tracks {before : ℤ} (h : AfterGap d log before) (hstays : d.Stays x) :
    d.freezeStart ≠ minLong ∧
      Tracks { d with freezeRunStartMs := d.freezeStart } log
        (runOf { d with freezeRunStartMs := d.freezeStart }) fun _ => before := by
  obtain ⟨hvalue, hset⟩ := h.value hstays.1
  unfold freezeStart
  split
  · rename_i hunset
    have hnone : d.runOf "FREEZE" = none := by simp [runOf, hunset]
    have hbegun := h.tracks.beginAt hnone (le_refl before)
    rw [Function.update_eq_self_iff.mpr rfl] at hbegun
    rw [runOf_freezeRunStart, hvalue, if_neg hset]
    exact ⟨hset, hbegun.congr rfl⟩
  · rename_i hrunning
    exact ⟨hrunning, h.tracks⟩

theorem freeze_tracks {before : ℤ} (h : AfterGap d log before) (hlt : before < x.2.eventTsMs) :
    Tracks (d.freeze x.2 x.1).1 (log ++ (d.freeze x.2 x.1).2) (d.freeze x.2 x.1).1.runOf
      (Function.update (fun _ => before) "FREEZE" x.2.eventTsMs) := by
  have hlater : ∀ k, before ≤
      Function.update (fun _ => before) "FREEZE" x.2.eventTsMs k := by
    intro k
    rw [Function.update_apply]
    split <;> omega
  rcases freeze_cases d x with ⟨hstays, -, evidence, heq⟩ | ⟨hstays, heq⟩ | ⟨-, heq⟩ |
    ⟨-, hnone, heq⟩
  · obtain ⟨hne, htracks⟩ := freezeRun_tracks h hstays
    rw [heq, runOf_advance]
    refine htracks.advance "FREEZE" evidence ?_ hlt.le
    rw [runOf_freezeRunStart, Function.update_self, if_neg hne]
  · rw [heq, List.append_nil]
    exact (freezeRun_tracks h hstays).2.wait hlater
  · obtain ⟨out, hclose, -⟩ := close_cases d "FREEZE" x.2.eventTsMs "PV_MOVED"
    have hclosed := h.tracks.close "FREEZE" "PV_MOVED" hlt (le_refl x.2.eventTsMs)
    rw [hclose] at hclosed heq
    rw [heq, runOf_freezeRunStart, if_pos rfl]
    exact hclosed.congr rfl
  · rw [heq, List.append_nil, runOf_freezeRunStart, if_pos rfl]
    exact ((h.tracks.drop hnone).wait hlater).congr rfl

theorem freeze_fields (d : ConditionDetector) (x : Input) :
    (d.freeze x.2 x.1).1.limitSide = d.limitSide ∧
      (d.freeze x.2 x.1).1.lastDeltaMs = d.lastDeltaMs ∧
      (d.freeze x.2 x.1).1.limitRunStartMs = d.limitRunStartMs := by
  rcases freeze_cases d x with ⟨-, -, evidence, heq⟩ | ⟨-, heq⟩ | ⟨-, heq⟩ | ⟨-, -, heq⟩
  · obtain ⟨o, updates, out, hadvance, -⟩ := advance_cases { d with freezeRunStartMs := d.freezeStart }
      "G11" "FREEZE" d.freezeStart x.2.eventTsMs evidence
    rw [heq, hadvance]
    exact ⟨rfl, rfl, rfl⟩
  · rw [heq]
    exact ⟨rfl, rfl, rfl⟩
  · obtain ⟨out, hclose, -⟩ := close_cases d "FREEZE" x.2.eventTsMs "PV_MOVED"
    rw [heq, hclose]
    exact ⟨rfl, rfl, rfl⟩
  · rw [heq]
    exact ⟨rfl, rfl, rfl⟩

def leaveSide (d : ConditionDetector) (ts : ℤ) : ConditionDetector × List ConditionEvent :=
  match d.limitSide with
  | some limit => if d.opened.contains limit then d.close limit ts "LEFT_LIMIT" else (d, [])
  | none => (d, [])

theorem changeSide_eq (d : ConditionDetector) (side : Option String) (ts : ℤ) :
    d.changeSide side ts =
      ({ (d.leaveSide ts).1 with
          limitSide := side, limitRunStartMs := if side.isSome then ts else minLong },
        (d.leaveSide ts).2) := rfl

theorem leaveSide_cases (d : ConditionDetector) (ts : ℤ) :
    (∃ limit, d.limitSide = some limit ∧ d.leaveSide ts = d.close limit ts "LEFT_LIMIT") ∨
    ((∀ limit ∈ d.limitSide, d.opened.get? limit = none) ∧ d.leaveSide ts = (d, [])) := by
  unfold leaveSide
  split
  · rename_i limit hlimit
    split
    · exact Or.inl ⟨limit, hlimit, rfl⟩
    · rename_i hopen
      refine Or.inr ⟨fun k hk => ?_, rfl⟩
      rw [← Option.some.inj (hlimit.symm.trans hk)]
      exact Option.not_isSome_iff_eq_none.mp hopen
  · rename_i hnone
    refine Or.inr ⟨fun k hk => ?_, rfl⟩
    rw [hnone] at hk
    cases hk

def freezeRunOf (d : ConditionDetector) (kind : String) : Option ℤ :=
  if kind = "FREEZE" then d.runOf kind else none

theorem freezeRunOf_eq {limit : String} (hlimit : d.limitSide = some limit)
    (hne : limit ≠ "FREEZE") : d.freezeRunOf = Function.update d.runOf limit none := by
  funext k
  unfold freezeRunOf
  by_cases hk : k = limit
  · subst hk
    simp [hne]
  · have hother : limit ≠ k := fun heq => hk heq.symm
    by_cases hk' : k = "FREEZE"
    · subst hk'
      simp [hk]
    · simp [runOf, hk, hk', hlimit, hother]

theorem freezeRunOf_of_none (hlimit : d.limitSide = none) : d.freezeRunOf = d.runOf := by
  funext k
  unfold freezeRunOf
  by_cases hk : k = "FREEZE"
  · simp [hk]
  · simp [runOf, hk, hlimit]

theorem leaveSide_tracks {now : String → ℤ} {ts : ℤ} (h : Tracks d log d.runOf now)
    (hnow : ∀ k, now k ≤ ts) (hlimit : ∀ k ∈ d.limitSide, k ≠ "FREEZE" ∧ now k < ts) :
    Tracks (d.leaveSide ts).1 (log ++ (d.leaveSide ts).2) d.freezeRunOf (fun _ => ts) := by
  rcases leaveSide_cases d ts with ⟨limit, hside, heq⟩ | ⟨hclosed, heq⟩
  · obtain ⟨hne, hlt⟩ := hlimit limit hside
    rw [heq, freezeRunOf_eq hside hne]
    refine (h.close _ _ hlt (le_refl ts)).wait fun k => ?_
    rw [Function.update_apply]
    split
    · exact le_refl ts
    · exact hnow k
  · rw [heq, List.append_nil]
    rcases hside : d.limitSide with _ | limit
    · rw [freezeRunOf_of_none hside]
      exact h.wait hnow
    · rw [freezeRunOf_eq hside (hlimit limit hside).1]
      exact (h.drop (hclosed limit hside)).wait hnow

theorem leaveSide_runOf (d : ConditionDetector) (ts : ℤ) :
    (d.leaveSide ts).1.runOf = d.runOf := by
  rcases leaveSide_cases d ts with ⟨limit, -, heq⟩ | ⟨-, heq⟩
  · rw [heq, runOf_close]
  · rw [heq]

theorem changeSide_tracks {now : String → ℤ} {side : Option String} {ts : ℤ}
    (h : Tracks d log d.runOf now) (hnow : ∀ k, now k ≤ ts)
    (hlimit : ∀ k ∈ d.limitSide, k ≠ "FREEZE" ∧ now k < ts) (hside : ∀ k ∈ side, k ≠ "FREEZE") :
    Tracks (d.changeSide side ts).1 (log ++ (d.changeSide side ts).2)
      (d.changeSide side ts).1.runOf (fun _ => ts) := by
  have htracks := leaveSide_tracks h hnow hlimit
  rw [changeSide_eq]
  dsimp only
  rw [runOf_limitSide, leaveSide_runOf]
  cases side with
  | none => exact htracks.congr rfl
  | some kind =>
    have hne := hside kind rfl
    have hnone : d.freezeRunOf kind = none := by simp [freezeRunOf, hne]
    have hbegun := htracks.beginAt hnone (le_refl ts)
    rw [Function.update_eq_self_iff.mpr rfl] at hbegun
    have hrun : (fun k => if k = "FREEZE" then d.runOf k
        else if some kind = some k then some (if (some kind).isSome then ts else minLong)
        else none) = Function.update d.freezeRunOf kind (some ts) := by
      funext k
      by_cases hk : k = kind
      · subst hk
        simp [hne]
      · have hother : kind ≠ k := fun heq => hk heq.symm
        by_cases hk' : k = "FREEZE"
        · subst hk'
          simp [freezeRunOf, hk]
        · simp [freezeRunOf, hk, hk', hother]
    rw [hrun]
    exact hbegun.congr rfl

theorem sideOf_cases {p : ConditionProfile} {norm : F64} {kind : String}
    (h : sideOf p norm = some kind) : kind = "LIMIT_LOW" ∨ kind = "LIMIT_HIGH" := by
  unfold sideOf at h
  split at h
  · exact Or.inl (Option.some.inj h).symm
  · split at h
    · exact Or.inr (Option.some.inj h).symm
    · exact absurd h (by simp)

theorem not_freeze {kind : String} (h : kind = "LIMIT_LOW" ∨ kind = "LIMIT_HIGH") :
    kind ≠ "FREEZE" := by
  rcases h with rfl | rfl <;> decide

def side (x : Input) : Option String := sideOf x.1 (x.1.normalizeOp x.2.op)

def sideChanged (d : ConditionDetector) (x : Input) : ConditionDetector × List ConditionEvent :=
  if side x = none ∨ side x ≠ d.limitSide then d.changeSide (side x) x.2.eventTsMs else (d, [])

def limitDwell (d : ConditionDetector) (x : Input) : F64 :=
  if F64.lt (F64.ofInt 0) x.1.limitDwellWarnS then x.1.limitDwellWarnS
  else F64.mul (F64.ofInt x.1.satLimitDwellSamplesWarn)
    (F64.div (F64.ofInt d.lastDeltaMs) (F64.ofInt 1000))

theorem limit_cases (d : ConditionDetector) (x : Input) :
    (∃ kind evidence, side x = some kind ∧
      F64.le (d.limitDwell x)
        (seconds (d.sideChanged x).1.limitRunStartMs x.2.eventTsMs) ∧
      d.limit x.2 x.1 =
        (((d.sideChanged x).1.advance "G10" kind (d.sideChanged x).1.limitRunStartMs x.2.eventTsMs
            evidence).1,
          (d.sideChanged x).2 ++ ((d.sideChanged x).1.advance "G10" kind
            (d.sideChanged x).1.limitRunStartMs x.2.eventTsMs evidence).2)) ∨
    d.limit x.2 x.1 = d.sideChanged x := by
  cases hside : side x with
  | none =>
    have hnone : sideOf x.1 (x.1.normalizeOp x.2.op) = none := hside
    refine Or.inr ?_
    unfold limit sideChanged side
    dsimp only
    rw [hnone]
  | some kind =>
    have hsome : sideOf x.1 (x.1.normalizeOp x.2.op) = some kind := hside
    have heq : d.limit x.2 x.1 =
        if F64.le (d.limitDwell x)
            (seconds (d.sideChanged x).1.limitRunStartMs x.2.eventTsMs) then
          let advanced := (d.sideChanged x).1.advance "G10" kind
            (d.sideChanged x).1.limitRunStartMs x.2.eventTsMs
            [("limit_source",
                .text (if x.1.opRangeDeclared then "DECLARED_RANGE" else "FALLBACK_0_100")),
              ("limit_low_pp", .number x.1.limitTolerancePp),
              ("limit_high_pp", .number (F64.sub (F64.ofInt 100) x.1.limitTolerancePp)),
              ("op_normalized_last", .number (x.1.normalizeOp x.2.op)),
              ("dwell_warn_s", .number (d.limitDwell x))]
          (advanced.1, (d.sideChanged x).2 ++ advanced.2)
        else d.sideChanged x := by
      unfold limit sideChanged limitDwell side
      dsimp only
      rw [hsome]
    rw [heq]
    split
    · rename_i hdwell
      exact Or.inl ⟨kind, _, rfl, hdwell, rfl⟩
    · exact Or.inr rfl

theorem limitSide_sideChanged (d : ConditionDetector) (x : Input) :
    (d.sideChanged x).1.limitSide = side x := by
  unfold sideChanged
  split
  · rw [changeSide_eq]
  · rename_i hsame
    push Not at hsame
    exact hsame.2.symm

theorem sideChanged_tracks {now : String → ℤ} (h : Tracks d log d.runOf now)
    (hnow : ∀ k, now k ≤ x.2.eventTsMs)
    (hlimit : ∀ k ∈ d.limitSide, k ≠ "FREEZE" ∧ now k < x.2.eventTsMs) :
    Tracks (d.sideChanged x).1 (log ++ (d.sideChanged x).2) (d.sideChanged x).1.runOf
      (fun _ => x.2.eventTsMs) := by
  unfold sideChanged
  split
  · exact changeSide_tracks h hnow hlimit fun k hk => not_freeze (sideOf_cases hk)
  · rw [List.append_nil]
    exact h.wait hnow

theorem limit_tracks {now : String → ℤ} (h : Tracks d log d.runOf now)
    (hnow : ∀ k, now k ≤ x.2.eventTsMs)
    (hlimit : ∀ k ∈ d.limitSide, k ≠ "FREEZE" ∧ now k < x.2.eventTsMs) :
    Tracks (d.limit x.2 x.1).1 (log ++ (d.limit x.2 x.1).2) (d.limit x.2 x.1).1.runOf
      (fun _ => x.2.eventTsMs) := by
  have hchanged := sideChanged_tracks h hnow hlimit
  rcases limit_cases d x with ⟨kind, evidence, hside, -, heq⟩ | heq
  · have hne := not_freeze (sideOf_cases hside)
    have hgate : gateOf kind = "G10" := if_neg hne
    have hrun : (d.sideChanged x).1.runOf kind = some (d.sideChanged x).1.limitRunStartMs := by
      simp [runOf, hne, limitSide_sideChanged, hside]
    have hadvance := hchanged.advance kind evidence hrun (le_refl x.2.eventTsMs)
    rw [Function.update_eq_self_iff.mpr rfl, hgate, List.append_assoc] at hadvance
    rw [heq, runOf_advance]
    exact hadvance
  · rw [heq]
    exact hchanged

theorem limit_fields (d : ConditionDetector) (x : Input) :
    (d.limit x.2 x.1).1.limitSide = side x ∧ (d.limit x.2 x.1).1.lastDeltaMs = d.lastDeltaMs := by
  have hgrid : (d.sideChanged x).1.lastDeltaMs = d.lastDeltaMs := by
    unfold sideChanged
    split
    · rw [changeSide_eq]
      dsimp only
      rcases leaveSide_cases d x.2.eventTsMs with ⟨limit, -, heq⟩ | ⟨-, heq⟩
      · obtain ⟨out, hclose, -⟩ := close_cases d limit x.2.eventTsMs "LEFT_LIMIT"
        rw [heq, hclose]
      · rw [heq]
    · rfl
  rcases limit_cases d x with ⟨kind, evidence, -, -, heq⟩ | heq
  · obtain ⟨o, updates, out, hadvance, -⟩ := advance_cases (d.sideChanged x).1 "G10" kind
      (d.sideChanged x).1.limitRunStartMs x.2.eventTsMs evidence
    rw [heq, hadvance]
    exact ⟨limitSide_sideChanged d x, hgrid⟩
  · rw [heq]
    exact ⟨limitSide_sideChanged d x, hgrid⟩

theorem Inv.step (h : Inv d log) (hr : InRange d x) (hlow : minLong ≤ d.lastTsMs)
    (hlast : x.2.isValid → d.lastTsMs < x.2.eventTsMs) :
    Inv (ConditionDetector.step d x).1 (log ++ (ConditionDetector.step d x).2) := by
  unfold ConditionDetector.step onSample
  by_cases hvalid : x.2.isValid
  · rw [if_neg (not_not_intro hvalid)]
    dsimp only
    obtain ⟨before, hlt, hgap⟩ := afterGap h hr hvalid (hlast hvalid) hlow
    have hfreeze := freeze_tracks hgap hlt
    obtain ⟨hside, hgrid, -⟩ := freeze_fields (d.observeGap x.2.eventTsMs).1 x
    have hlimit := limit_tracks hfreeze (x := x)
      (fun k => by rw [Function.update_apply]; split <;> omega)
      (fun k hk => by
        rw [hside] at hk
        have hne := not_freeze (hgap.side k hk)
        rw [Function.update_of_ne hne]
        exact ⟨hne, hlt⟩)
    obtain ⟨hside', hgrid'⟩ := limit_fields ((d.observeGap x.2.eventTsMs).1.freeze x.2 x.1).1 x
    refine ⟨?_, ?_, fun kind hk => ?_, fun _ => (hr hvalid).1.ne'⟩
    · rw [← List.append_assoc, ← List.append_assoc]
      exact hlimit.congr rfl
    · dsimp only
      rw [hgrid', hgrid]
      exact hgap.grid
    · dsimp only at hk
      rw [hside'] at hk
      exact sideOf_cases hk
  · rw [if_pos hvalid, List.append_nil]
    exact h

end ConditionDetector

end OpenBridge.Conditions
