import OpenBridge.Conditions.DetectorRuns

/-!
# Conditions: well-formed episodes

The run behind an episode, sample by sample, and what a gap closes.
-/

namespace OpenBridge.Conditions

open OpenBridge.Foundation

namespace ConditionDetector

variable {d : ConditionDetector} {log : List ConditionEvent} {x : Input} {u : ℤ}

/-! ## What a sample leaves in the detector -/

def checked (d : ConditionDetector) (x : Input) : ConditionDetector :=
  (d.observeGap x.2.eventTsMs).1

def frozen (d : ConditionDetector) (x : Input) : ConditionDetector :=
  ((d.checked x).freeze x.2 x.1).1

theorem step_of_valid (hvalid : x.2.isValid) : step d x =
    ({ ((d.frozen x).limit x.2 x.1).1 with lastTsMs := x.2.eventTsMs, lastPv := x.2.pv },
      (d.observeGap x.2.eventTsMs).2 ++ ((d.checked x).freeze x.2 x.1).2 ++
        ((d.frozen x).limit x.2 x.1).2) := by
  unfold step onSample
  rw [if_neg (not_not_intro hvalid)]
  rfl

theorem step_of_not_valid (hvalid : ¬ x.2.isValid) : step d x = (d, []) := by
  unfold step onSample
  rw [if_pos hvalid]

theorem checked_cases (h : Inv d log) (hr : InRange d x) (hvalid : x.2.isValid)
    (hlast : d.lastTsMs < x.2.eventTsMs) (hlow : minLong ≤ d.lastTsMs) :
    (d.Gap x.2.eventTsMs ∧ (d.checked x).lastPv = none ∧
      (d.checked x).freezeRunStartMs = minLong ∧ (d.checked x).limitSide = none) ∨
    (¬ d.Gap x.2.eventTsMs ∧ ∃ delta, d.checked x = { d with lastDeltaMs := delta }) := by
  unfold checked
  rw [observeGap_eq h hr hvalid hlast hlow]
  split
  · rename_i hgap
    exact Or.inl ⟨hgap, rfl, rfl, rfl⟩
  · rename_i hgap
    refine Or.inr ⟨hgap, ?_⟩
    split
    · exact ⟨d.lastDeltaMs, rfl⟩
    · exact ⟨_, rfl⟩

theorem limit_runs (d : ConditionDetector) (x : Input) :
    (d.limit x.2 x.1).1.freezeRunStartMs = d.freezeRunStartMs ∧
      (d.limit x.2 x.1).1.limitRunStartMs = (d.sideChanged x).1.limitRunStartMs := by
  have hfreeze : (d.sideChanged x).1.freezeRunStartMs = d.freezeRunStartMs := by
    unfold sideChanged
    split
    · rw [changeSide_eq]
      dsimp only
      rcases leaveSide_cases d x.2.eventTsMs with ⟨limit, -, heq⟩ | ⟨-, heq⟩
      · obtain ⟨out, hclose, -⟩ := close_cases d limit x.2.eventTsMs "LEFT_LIMIT"
        rw [heq, hclose]
      · rw [heq]
    · rfl
  rcases limit_cases d x with ⟨kind, evidence, -, -, heq⟩ | heq
  · obtain ⟨o, updates, out, hadvance, -⟩ := advance_cases (d.sideChanged x).1 "G10" kind
      (d.sideChanged x).1.limitRunStartMs x.2.eventTsMs evidence
    rw [heq, hadvance]
    exact ⟨hfreeze, rfl⟩
  · rw [heq]
    exact ⟨hfreeze, rfl⟩

theorem freeze_run (d : ConditionDetector) (x : Input) :
    (d.freeze x.2 x.1).1.freezeRunStartMs = if d.Stays x then d.freezeStart else minLong := by
  rcases freeze_cases d x with ⟨hstays, -, evidence, heq⟩ | ⟨hstays, heq⟩ | ⟨hmoved, heq⟩ |
    ⟨hmoved, -, heq⟩
  · obtain ⟨o, updates, out, hadvance, -⟩ :=
      advance_cases { d with freezeRunStartMs := d.freezeStart } "G11" "FREEZE" d.freezeStart
        x.2.eventTsMs evidence
    rw [heq, hadvance, if_pos hstays]
  · rw [heq, if_pos hstays]
  · rw [heq, if_neg hmoved]
  · rw [heq, if_neg hmoved]

theorem sideChanged_run (d : ConditionDetector) (x : Input) {kind : String}
    (hside : side x = some kind) : (d.sideChanged x).1.limitRunStartMs =
      if d.limitSide = some kind then d.limitRunStartMs else x.2.eventTsMs := by
  unfold sideChanged
  rw [hside]
  by_cases hsame : d.limitSide = some kind
  · rw [if_neg (by simp [hsame]), if_pos hsame]
  · have hother : some kind ≠ d.limitSide := fun heq => hsame heq.symm
    rw [if_pos (Or.inr hother), if_neg hsame, changeSide_eq]
    rfl

/-! ## The run behind an episode -/

def after (u : ℤ) (history : List Input) : ConditionDetector :=
  Machine.stateAfter step (start u) history

def recordsOf (u : ℤ) (history : List Input) : List ConditionEvent :=
  Machine.outputs step (start u) history

def KeepsFreeze (d : ConditionDetector) (x : Input) : Prop :=
  x.2.isValid → ¬ d.Gap x.2.eventTsMs ∧ d.Stays x

def KeepsLimit (kind : String) (d : ConditionDetector) (x : Input) : Prop :=
  x.2.isValid → ¬ d.Gap x.2.eventTsMs ∧ side x = some kind

/-- From the sample at a time on, the value has not moved and the source has had no gap. -/
def FreezeHeld (u : ℤ) (history : List Input) (startMs : ℤ) : Prop :=
  ∃ pre first run, history = pre ++ first :: run ∧ first.2.isValid ∧
    first.2.eventTsMs = startMs ∧
    Machine.Always step KeepsFreeze (after u (pre ++ [first])) run

/-- From the sample at a time on, all samples are at the limit and the source has had no gap. -/
def LimitHeld (u : ℤ) (kind : String) (history : List Input) (startMs : ℤ) : Prop :=
  ∃ pre first run, history = pre ++ first :: run ∧ first.2.isValid ∧
    first.2.eventTsMs = startMs ∧ side first = some kind ∧
    Machine.Always step (KeepsLimit kind) (after u (pre ++ [first])) run

theorem after_concat (history : List Input) (x : Input) :
    after u (history ++ [x]) = (step (after u history) x).1 :=
  Machine.stateAfter_concat step (start u) history x

theorem recordsOf_concat (history : List Input) (x : Input) :
    recordsOf u (history ++ [x]) = recordsOf u history ++ (step (after u history) x).2 :=
  Machine.outputs_concat step (start u) history x

theorem after_run (pre : List Input) (first : Input) (run : List Input) :
    Machine.stateAfter step (after u (pre ++ [first])) run = after u (pre ++ first :: run) := by
  unfold after
  rw [← Machine.stateAfter_append, List.append_assoc, List.singleton_append]

theorem FreezeHeld.begins (history : List Input) (hvalid : x.2.isValid) :
    FreezeHeld u (history ++ [x]) x.2.eventTsMs :=
  ⟨history, x, [], rfl, hvalid, rfl, trivial⟩

theorem LimitHeld.begins (history : List Input) (hvalid : x.2.isValid) {kind : String}
    (hside : side x = some kind) : LimitHeld u kind (history ++ [x]) x.2.eventTsMs :=
  ⟨history, x, [], rfl, hvalid, rfl, hside, trivial⟩

theorem FreezeHeld.extends {history : List Input} {startMs : ℤ} (h : FreezeHeld u history startMs)
    (hkeeps : KeepsFreeze (after u history) x) : FreezeHeld u (history ++ [x]) startMs := by
  obtain ⟨pre, first, run, rfl, hvalid, hstart, hrun⟩ := h
  refine ⟨pre, first, run ++ [x], by rw [List.append_assoc, List.cons_append], hvalid, hstart, ?_⟩
  rw [Machine.always_concat, after_run]
  exact ⟨hrun, hkeeps⟩

theorem LimitHeld.extends {history : List Input} {startMs : ℤ} {kind : String}
    (h : LimitHeld u kind history startMs) (hkeeps : KeepsLimit kind (after u history) x) :
    LimitHeld u kind (history ++ [x]) startMs := by
  obtain ⟨pre, first, run, rfl, hvalid, hstart, hside, hrun⟩ := h
  refine ⟨pre, first, run ++ [x], by rw [List.append_assoc, List.cons_append], hvalid, hstart,
    hside, ?_⟩
  rw [Machine.always_concat, after_run]
  exact ⟨hrun, hkeeps⟩

structure Grounded (u : ℤ) (history : List Input) (d : ConditionDetector) : Prop where
  seen : d.lastTsMs = minLong ∨ ∃ y ∈ history, minLong < y.2.eventTsMs ∧ y.2.eventTsMs = d.lastTsMs
  freeze : d.lastTsMs ≠ minLong → FreezeHeld u history d.freezeStart
  limit : ∀ kind, d.limitSide = some kind → LimitHeld u kind history d.limitRunStartMs

theorem grounded_start : Grounded u [] (start u) where
  seen := Or.inl rfl
  freeze h := absurd rfl h
  limit kind h := by simp [start, new] at h

theorem Grounded.low {history : List Input} (h : Grounded u history d) : minLong ≤ d.lastTsMs := by
  rcases h.seen with hunset | ⟨y, -, hlow, hy⟩
  · omega
  · omega

theorem freezeStart_ne (hset : d.lastTsMs ≠ minLong) : d.freezeStart ≠ minLong := by
  unfold freezeStart
  split
  · exact hset
  · rename_i hrunning
    exact hrunning

theorem freezeStart_of_eq {runStartMs ts : ℤ} {pv : F64} (d : ConditionDetector)
    (hfreeze : d.freezeRunStartMs = runStartMs) :
    freezeStart { d with lastTsMs := ts, lastPv := pv } =
      if runStartMs = minLong then ts else runStartMs := by
  rw [← hfreeze]
  rfl

theorem step_runs (hvalid : x.2.isValid) :
    (step d x).1.lastTsMs = x.2.eventTsMs ∧
    (step d x).1.freezeStart =
      (if (d.checked x).Stays x ∧ (d.checked x).freezeStart ≠ minLong then
        (d.checked x).freezeStart else x.2.eventTsMs) ∧
    (step d x).1.limitSide = side x ∧
    ∀ kind, side x = some kind → (step d x).1.limitRunStartMs =
      if (d.checked x).limitSide = some kind then (d.checked x).limitRunStartMs
      else x.2.eventTsMs := by
  obtain ⟨hside, -, hstart⟩ := freeze_fields (d.checked x) x
  obtain ⟨hfreeze, hlimit⟩ := limit_runs (d.frozen x) x
  rw [step_of_valid hvalid]
  refine ⟨rfl, ?_, (limit_fields (d.frozen x) x).1, fun kind hkind => ?_⟩
  · rw [freezeStart_of_eq _ (hfreeze.trans (freeze_run (d.checked x) x))]
    by_cases hstays : (d.checked x).Stays x
    · by_cases hset : (d.checked x).freezeStart = minLong
      · simp [hstays, hset]
      · simp [hstays, hset]
    · simp [hstays]
  · dsimp only
    rw [hlimit, sideChanged_run _ _ hkind]
    unfold frozen
    rw [hside, hstart]

theorem Grounded.step {history : List Input} (h : Grounded u history (after u history))
    (hinv : Inv (after u history) log) (hr : InRange (after u history) x)
    (hlast : x.2.isValid → (after u history).lastTsMs < x.2.eventTsMs) :
    Grounded u (history ++ [x]) (after u (history ++ [x])) := by
  rw [after_concat]
  by_cases hvalid : x.2.isValid
  · obtain ⟨hts, hfreeze, hside, hlimit⟩ := step_runs (d := after u history) hvalid
    have hchecked := checked_cases hinv hr hvalid (hlast hvalid) h.low
    refine ⟨Or.inr ⟨x, List.mem_append_right _ List.mem_cons_self, (hr hvalid).1, hts.symm⟩,
      fun _ => ?_, fun kind hkind => ?_⟩
    · rw [hfreeze]
      split
      · rename_i hstays
        rcases hchecked with ⟨-, hnone, -⟩ | ⟨hgap, delta, heq⟩
        · exact absurd hnone hstays.1.1
        · rw [heq] at hstays ⊢
          have hset := hinv.value hstays.1.1
          exact (h.freeze hset).extends fun _ => ⟨hgap, hstays.1⟩
      · exact FreezeHeld.begins history hvalid
    · rw [hside] at hkind
      rw [hlimit kind hkind]
      split
      · rename_i hsame
        rcases hchecked with ⟨-, -, -, hnone⟩ | ⟨hgap, delta, heq⟩
        · rw [hnone] at hsame
          cases hsame
        · rw [heq] at hsame ⊢
          exact (h.limit kind hsame).extends fun _ => ⟨hgap, hkind⟩
      · exact LimitHeld.begins history hvalid hkind
  · rw [step_of_not_valid hvalid]
    refine ⟨?_, fun hset => (h.freeze hset).extends fun hv => absurd hv hvalid,
      fun kind hkind => (h.limit kind hkind).extends fun hv => absurd hv hvalid⟩
    rcases h.seen with hunset | ⟨y, hy, hseen⟩
    · exact Or.inl hunset
    · exact Or.inr ⟨y, List.mem_append_left _ hy, hseen⟩

theorem Grounded.lastTs_lt {history : List Input} (h : Grounded u history d)
    (hr : InRange d x) (hlater : ∀ y ∈ history, y.2.eventTsMs < x.2.eventTsMs)
    (hvalid : x.2.isValid) : d.lastTsMs < x.2.eventTsMs := by
  have hts := (hr hvalid).1
  rcases h.seen with hunset | ⟨y, hy, -, hseen⟩
  · omega
  · have hlt := hlater y hy
    omega

theorem run_invariant {history : List Input}
    (hincreasing : (history.map fun y => y.2.eventTsMs).Pairwise (· < ·))
    (hrange : Machine.Always step InRange (start u) history) :
    Inv (after u history) (recordsOf u history) ∧ Grounded u history (after u history) := by
  induction history using List.reverseRecOn with
  | nil => exact ⟨inv_start u, grounded_start⟩
  | append_singleton history x ih =>
    rw [List.map_append, List.pairwise_append] at hincreasing
    rw [Machine.always_concat] at hrange
    obtain ⟨hinv, hground⟩ := ih hincreasing.1 hrange.1
    have hlast := hground.lastTs_lt hrange.2 fun y hy =>
      hincreasing.2.2 _ (List.mem_map_of_mem hy) _ List.mem_cons_self
    rw [recordsOf_concat]
    refine ⟨?_, hground.step hinv hrange.2 hlast⟩
    rw [after_concat]
    exact hinv.step hrange.2 hground.low hlast

/-! ## Openings and gaps -/

theorem closed_of_close {kind reason : String} {endMs : ℤ} {e : ConditionEvent}
    (he : e ∈ (d.close kind endMs reason).2) : e.state = "CLOSED" := by
  obtain ⟨out, heq, hcases⟩ := close_cases d kind endMs reason
  rw [heq] at he
  rcases hcases with ⟨-, rfl⟩ | ⟨o, c, -, rfl, hstate, -⟩
  · exact absurd he List.not_mem_nil
  · rw [List.mem_singleton.mp he]
    exact hstate

theorem closed_of_closeAll {kinds : List String} {reason : String} {endMs : ℤ}
    {e : ConditionEvent} (he : e ∈ (d.closeAll kinds endMs reason).2) : e.state = "CLOSED" := by
  induction kinds using List.reverseRecOn with
  | nil => exact absurd he List.not_mem_nil
  | append_singleton kinds kind ih =>
    rw [closeAll_concat] at he
    rcases List.mem_append.mp he with he | he
    · exact ih he
    · exact closed_of_close he

theorem closed_of_observeGap {ts : ℤ} {e : ConditionEvent} (he : e ∈ (d.observeGap ts).2) :
    e.state = "CLOSED" := by
  unfold observeGap at he
  split at he
  · exact absurd he List.not_mem_nil
  · dsimp only at he
    split at he
    · exact closed_of_closeAll he
    · split at he
      · exact absurd he List.not_mem_nil
      · exact absurd he List.not_mem_nil

theorem closed_of_sideChanged {e : ConditionEvent} (he : e ∈ (d.sideChanged x).2) :
    e.state = "CLOSED" := by
  unfold sideChanged at he
  split at he
  · rw [changeSide_eq] at he
    dsimp only at he
    rcases leaveSide_cases d x.2.eventTsMs with ⟨limit, -, heq⟩ | ⟨-, heq⟩
    · rw [heq] at he
      exact closed_of_close he
    · rw [heq] at he
      exact absurd he List.not_mem_nil
  · exact absurd he List.not_mem_nil

theorem opened_of_advance {gate kind : String} {startMs ts : ℤ}
    {evidence : List (String × EvidenceValue)} {e : ConditionEvent}
    (he : e ∈ (d.advance gate kind startMs ts evidence).2) (hopen : e.state = "OPEN") :
    e.kind = kind ∧ e.startMs = startMs ∧ e.lastMs = ts := by
  obtain ⟨o, updates, out, heq, hlast, hcases⟩ := advance_cases d gate kind startMs ts evidence
  rw [heq] at he
  rcases hcases with ⟨-, hstart, hkind, -, rfl⟩ | ⟨o', -, -, -, -, rfl | rfl⟩
  · rw [List.mem_singleton.mp he]
    exact ⟨hkind, hstart, hlast⟩
  · exact absurd he List.not_mem_nil
  · rw [List.mem_singleton.mp he] at hopen
    exact absurd hopen (by simp [ConditionEvent.copyAs])

def Dwelled (d : ConditionDetector) (x : Input) (e : ConditionEvent) : Prop :=
  (e.kind = "FREEZE" ∧ (d.checked x).Stays x ∧ e.startMs = (d.checked x).freezeStart ∧
    F64.le x.1.freezeDwellS (seconds e.startMs e.lastMs)) ∨
  (side x = some e.kind ∧ e.startMs = (step d x).1.limitRunStartMs ∧
    F64.le ((d.checked x).limitDwell x) (seconds e.startMs e.lastMs))

theorem dwelled_of_open (hvalid : x.2.isValid) {e : ConditionEvent} (he : e ∈ (step d x).2)
    (hopen : e.state = "OPEN") : Dwelled d x e ∧ e.lastMs = x.2.eventTsMs := by
  obtain ⟨-, hgrid, -⟩ := freeze_fields (d.checked x) x
  have hrun : (step d x).1.limitRunStartMs = ((d.frozen x).sideChanged x).1.limitRunStartMs := by
    rw [step_of_valid hvalid]
    exact (limit_runs (d.frozen x) x).2
  have hnot : ∀ e' : ConditionEvent, e'.state = "CLOSED" → e'.state ≠ "OPEN" := by
    intro e' hclosed
    rw [hclosed]
    decide
  rw [step_of_valid hvalid] at he
  rcases List.mem_append.mp he with he | he
  · rcases List.mem_append.mp he with he | he
    · exact absurd hopen (hnot e (closed_of_observeGap he))
    · rcases freeze_cases (d.checked x) x with ⟨hstays, hdwell, evidence, heq⟩ | ⟨-, heq⟩ |
        ⟨-, heq⟩ | ⟨-, -, heq⟩
      · rw [heq] at he
        obtain ⟨hkind, hstart, hlast⟩ := opened_of_advance he hopen
        refine ⟨Or.inl ⟨hkind, hstays, hstart, ?_⟩, hlast⟩
        rw [hstart, hlast]
        exact hdwell
      · rw [heq] at he
        exact absurd he List.not_mem_nil
      · rw [heq] at he
        exact absurd hopen (hnot e (closed_of_close he))
      · rw [heq] at he
        exact absurd he List.not_mem_nil
  · rcases limit_cases (d.frozen x) x with ⟨kind, evidence, hside, hdwell, heq⟩ | heq
    · rw [heq] at he
      rcases List.mem_append.mp he with he | he
      · exact absurd hopen (hnot e (closed_of_sideChanged he))
      · obtain ⟨hkind, hstart, hlast⟩ := opened_of_advance he hopen
        refine ⟨Or.inr ⟨by rw [hside, hkind], by rw [hrun, hstart], ?_⟩, hlast⟩
        rw [hstart, hlast]
        have hlimit : (d.frozen x).limitDwell x = (d.checked x).limitDwell x := by
          unfold limitDwell frozen
          rw [hgrid]
        rw [← hlimit]
        exact hdwell
    · rw [heq] at he
      exact absurd hopen (hnot e (closed_of_sideChanged he))

theorem closeAll_emits {kinds : List String} (hnodup : kinds.Nodup) {kind : String} (endMs : ℤ)
    (reason : String) (hmem : kind ∈ kinds) {o : ConditionEvent} (ho : d.opened.get? kind = some o) :
    ∃ c ∈ (d.closeAll kinds endMs reason).2, c.kind = o.kind ∧ c.state = "CLOSED" ∧
      c.startMs = o.startMs ∧ c.endMs = endMs ∧ c.closeReason = reason := by
  induction kinds using List.reverseRecOn with
  | nil => exact absurd hmem List.not_mem_nil
  | append_singleton kinds last ih =>
    obtain ⟨hnodup', -, hdisjoint⟩ := List.nodup_append.mp hnodup
    rw [closeAll_concat]
    rcases List.mem_append.mp hmem with hmem | hmem
    · obtain ⟨c, hc, hclosed⟩ := ih hnodup' hmem
      exact ⟨c, List.mem_append_left _ hc, hclosed⟩
    · obtain rfl := List.mem_singleton.mp hmem
      have hnot : kind ∉ kinds := fun h => hdisjoint kind h kind List.mem_cons_self rfl
      obtain ⟨opened, updates, heq, hget⟩ := closeAll_cases d kinds endMs reason
      obtain ⟨out, hclose, hcases⟩ := close_cases (d.closeAll kinds endMs reason).1 kind endMs reason
      have hopen : (d.closeAll kinds endMs reason).1.opened.get? kind = some o := by
        rw [heq]
        dsimp only
        rw [hget, if_neg hnot, ho]
      rcases hcases with ⟨hnone, -⟩ | ⟨e, c, he, rfl, hstate, hstart, -, hend, hkind, -, hreason⟩
      · rw [hopen] at hnone
        cases hnone
      · obtain rfl := Option.some.inj (hopen.symm.trans he)
        rw [hclose]
        exact ⟨c, List.mem_append_right _ List.mem_cons_self, hkind, hstate, hstart, hend, hreason⟩

/-! ## Main result -/

/-- The last record of the kind is this one, and it does not close. -/
def OpenIn (log : List ConditionEvent) (e : ConditionEvent) : Prop :=
  (ofKind e.kind log).getLast? = some e ∧ e.state ≠ "CLOSED"

def elapsed (e : ConditionEvent) : F64 :=
  F64.div (F64.ofInt (e.lastMs - e.startMs)) (F64.ofInt 1000)

/-- The condition of a record has held since its start without a break, for its dwell. -/
def HeldForDwell (u : ℤ) (history : List Input) (x : Input) (e : ConditionEvent) : Prop :=
  (e.kind = "FREEZE" ∧ FreezeHeld u (history ++ [x]) e.startMs ∧
    F64.le x.1.freezeDwellS (elapsed e)) ∨
  ((e.kind = "LIMIT_LOW" ∨ e.kind = "LIMIT_HIGH") ∧ LimitHeld u e.kind (history ++ [x]) e.startMs ∧
    F64.le (((after u history).checked x).limitDwell x) (elapsed e))

theorem seconds_eq_elapsed {e : ConditionEvent} (hle : e.startMs ≤ e.lastMs)
    (hrange : e.lastMs - e.startMs ≤ maxLong) : seconds e.startMs e.lastMs = elapsed e := by
  have hmin : minLong = -2 ^ 63 := rfl
  unfold seconds elapsed
  rw [wrap64_of_long (by omega) hrange]

theorem exists_opened (h : Inv d log) {e : ConditionEvent} (he : OpenIn log e) :
    ∃ o, d.opened.get? e.kind = some o ∧ o.startMs = e.startMs := by
  have htrack := h.tracks.kinds e.kind
  cases hopen : d.opened.get? e.kind with
  | none =>
    rw [hopen] at htrack
    exact absurd (htrack.last_of_none e he.1) he.2
  | some o =>
    rw [hopen] at htrack
    obtain ⟨e', hlast, -, hstart⟩ := htrack.last_of_some
    obtain rfl := Option.some.inj (he.1.symm.trans hlast)
    exact ⟨o, rfl, hstart.symm⟩

theorem eq_of_open (h : Inv d log) {e e' : ConditionEvent} (he : OpenIn log e)
    (he' : OpenIn log e') (hgate : e.gate = e'.gate) : e = e' := by
  have hmem : ∀ f, OpenIn log f → f ∈ log := fun f hf =>
    List.mem_of_mem_filter (List.mem_of_getLast? hf.1)
  rw [h.tracks.gates e (hmem e he), h.tracks.gates e' (hmem e' he')] at hgate
  have hrun : ∀ f, OpenIn log f → ∃ r, d.runOf f.kind = some r := by
    intro f hf
    obtain ⟨o, ho, -⟩ := exists_opened h hf
    have htrack := h.tracks.kinds f.kind
    rw [ho] at htrack
    exact ⟨_, htrack.run_of_some⟩
  have hlimit : ∀ f, OpenIn log f → f.kind ≠ "FREEZE" → d.limitSide = some f.kind := by
    intro f hf hne
    obtain ⟨r, hr⟩ := hrun f hf
    unfold runOf at hr
    rw [if_neg hne] at hr
    split at hr
    · rename_i hside
      exact hside
    · cases hr
  have hkind : e.kind = e'.kind := by
    unfold gateOf at hgate
    by_cases hk : e.kind = "FREEZE"
    · by_cases hk' : e'.kind = "FREEZE"
      · rw [hk, hk']
      · rw [if_pos hk, if_neg hk'] at hgate
        exact absurd hgate (by decide)
    · by_cases hk' : e'.kind = "FREEZE"
      · rw [if_neg hk, if_pos hk'] at hgate
        exact absurd hgate (by decide)
      · exact Option.some.inj ((hlimit e he hk).symm.trans (hlimit e' he' hk'))
  have hlast := he'.1
  rw [← hkind] at hlast
  exact Option.some.inj (he.1.symm.trans hlast)

theorem closed_of_gap (h : Inv d log) (hr : InRange d x) (hvalid : x.2.isValid)
    (hlast : d.lastTsMs < x.2.eventTsMs) (hlow : minLong ≤ d.lastTsMs)
    (hgap : d.Gap x.2.eventTsMs) {e : ConditionEvent} (he : OpenIn log e) :
    ∃ c ∈ (step d x).2, c.kind = e.kind ∧ c.state = "CLOSED" ∧ c.startMs = e.startMs := by
  obtain ⟨o, ho, hstart⟩ := exists_opened h he
  have hkey : e.kind ∈ d.opened.keys := by
    rw [Dict.mem_keys_iff_isSome, ho]
    rfl
  obtain ⟨c, hc, hkind, hstate, hcstart, -⟩ := closeAll_emits d.opened.keys_nodup
    (d.lastTsMs + d.lastDeltaMs) "SOURCE_GAP" hkey ho
  refine ⟨c, ?_, hkind.trans (h.tracks.named _ _ ho).1, hstate, hcstart.trans hstart⟩
  rw [step_of_valid hvalid, observeGap_eq h hr hvalid hlast hlow, if_pos hgap]
  exact List.mem_append_left _ (List.mem_append_left _ hc)

theorem freezeStart_bounds (h : Inv d log) (hr : InRange d x) (hvalid : x.2.isValid)
    (hlast : d.lastTsMs < x.2.eventTsMs) (hlow : minLong ≤ d.lastTsMs)
    (hstays : (d.checked x).Stays x) :
    d.lastTsMs ≠ minLong ∧ (d.checked x).freezeStart = d.freezeStart ∧
      d.freezeStart ≤ d.lastTsMs ∧ x.2.eventTsMs - d.freezeStart ≤ maxLong := by
  obtain ⟨-, -, -, hdelta, hrun⟩ := hr hvalid
  rcases checked_cases h hr hvalid hlast hlow with ⟨-, hnone, -⟩ | ⟨-, delta, heq⟩
  · exact absurd hnone hstays.1
  · rw [heq] at hstays ⊢
    have hset : d.lastTsMs ≠ minLong := h.value hstays.1
    refine ⟨hset, rfl, ?_⟩
    unfold freezeStart
    split
    · exact ⟨le_refl _, hdelta hset⟩
    · rename_i hrunning
      have hr' : d.runOf "FREEZE" = some d.freezeRunStartMs := by simp [runOf, hrunning]
      exact ⟨(h.tracks.kinds "FREEZE").begun _ hr', hrun _ _ hr'⟩

theorem limitRunStart_bounds (h : Inv d log) (hr : InRange d x) (hvalid : x.2.isValid)
    (hlast : d.lastTsMs < x.2.eventTsMs) (hlow : minLong ≤ d.lastTsMs) {kind : String}
    (hkind : side x = some kind) : (step d x).1.limitRunStartMs ≤ x.2.eventTsMs ∧
      x.2.eventTsMs - (step d x).1.limitRunStartMs ≤ maxLong := by
  obtain ⟨-, -, -, -, hrun⟩ := hr hvalid
  obtain ⟨-, -, -, hlimit⟩ := step_runs (d := d) hvalid
  rw [hlimit kind hkind]
  split
  · rename_i hsame
    rcases checked_cases h hr hvalid hlast hlow with ⟨-, -, -, hnone⟩ | ⟨-, delta, heq⟩
    · rw [hnone] at hsame
      cases hsame
    · rw [heq] at hsame ⊢
      have hne := not_freeze (h.side kind hsame)
      have hr' : d.runOf kind = some d.limitRunStartMs := by
        have hsame' : d.limitSide = some kind := hsame
        simp [runOf, hne, hsame']
      have hbegun := (h.tracks.kinds kind).begun _ hr'
      exact ⟨by dsimp only; omega, hrun _ _ hr'⟩
  · have hmax : maxLong = 2 ^ 63 - 1 := rfl
    exact ⟨le_refl _, by omega⟩

theorem heldForDwell_of_open {history : List Input} (hinv : Inv (after u history) log)
    (hground : Grounded u history (after u history)) (hr : InRange (after u history) x)
    (hlast : x.2.isValid → (after u history).lastTsMs < x.2.eventTsMs) {e : ConditionEvent}
    (he : e ∈ (step (after u history) x).2) (hopen : e.state = "OPEN") :
    HeldForDwell u history x e := by
  by_cases hvalid : x.2.isValid
  · have hlast := hlast hvalid
    have hnext := hground.step hinv hr fun _ => hlast
    rw [after_concat] at hnext
    obtain ⟨hts, hfreeze, hside, -⟩ := step_runs (d := after u history) hvalid
    obtain ⟨hdwelled, hend⟩ := dwelled_of_open hvalid he hopen
    rcases hdwelled with ⟨hkind, hstays, hstart, hdwell⟩ | ⟨hkind, hstart, hdwell⟩
    · obtain ⟨hset, hsame, hbegun, hspan⟩ :=
        freezeStart_bounds hinv hr hvalid hlast hground.low hstays
      rw [if_pos ⟨hstays, by rw [hsame]; exact freezeStart_ne hset⟩] at hfreeze
      have hheld := hnext.freeze (by rw [hts]; exact (hr hvalid).1.ne')
      rw [hfreeze, ← hstart] at hheld
      rw [hsame] at hstart
      rw [seconds_eq_elapsed (by omega) (by omega)] at hdwell
      exact Or.inl ⟨hkind, hheld, hdwell⟩
    · obtain ⟨hbegun, hspan⟩ := limitRunStart_bounds hinv hr hvalid hlast hground.low hkind
      have hheld := hnext.limit e.kind (hside.trans hkind)
      rw [← hstart] at hheld
      rw [seconds_eq_elapsed (by omega) (by omega)] at hdwell
      exact Or.inr ⟨sideOf_cases hkind, hheld, hdwell⟩
  · rw [step_of_not_valid hvalid] at he
    exact absurd he List.not_mem_nil

/-- The records of each kind are episodes; an episode opens when its condition has held for its
dwell; at most one kind of a gate is open; and a gap closes whatever is open. -/
theorem episodes_well_formed (u : ℤ) (xs : List Input)
    (hincreasing : (xs.map fun y => y.2.eventTsMs).Pairwise (· < ·))
    (hrange : Machine.Always step InRange (start u) xs) :
    (∀ kind, Episodic (ofKind kind (recordsOf u xs))) ∧
    ∀ history x, history ++ [x] <+: xs →
      (∀ e ∈ (step (after u history) x).2, e.state = "OPEN" → HeldForDwell u history x e) ∧
      (∀ e e', OpenIn (recordsOf u (history ++ [x])) e →
        OpenIn (recordsOf u (history ++ [x])) e' → e.gate = e'.gate → e = e') ∧
      (x.2.isValid → (after u history).Gap x.2.eventTsMs → ∀ e, OpenIn (recordsOf u history) e →
        ∃ c ∈ (step (after u history) x).2,
          c.kind = e.kind ∧ c.state = "CLOSED" ∧ c.startMs = e.startMs) := by
  refine ⟨fun kind => ?_, fun history x hprefix => ?_⟩
  · exact ((run_invariant hincreasing hrange).1.tracks.kinds kind).episodic
  · obtain ⟨rest, rfl⟩ := hprefix
    rw [List.map_append, List.pairwise_append] at hincreasing
    rw [Machine.always_append] at hrange
    have hafter := (run_invariant hincreasing.1 hrange.1).1
    rw [List.map_append, List.pairwise_append] at hincreasing
    obtain ⟨⟨hbefore, -, hlater⟩, -⟩ := hincreasing
    obtain ⟨hrange, -⟩ := hrange
    rw [Machine.always_concat] at hrange
    obtain ⟨hinv, hground⟩ := run_invariant hbefore hrange.1
    have hlast := hground.lastTs_lt hrange.2 fun y hy =>
      hlater _ (List.mem_map_of_mem hy) _ List.mem_cons_self
    exact ⟨fun e he hopen => heldForDwell_of_open hinv hground hrange.2 hlast he hopen,
      fun e e' he he' => eq_of_open hafter he he',
      fun hvalid hgap e he =>
        closed_of_gap hinv hrange.2 hvalid (hlast hvalid) hground.low hgap he⟩

def lowSample (ts : ℤ) : Input :=
  ({ satLimitDwellSamplesWarn := 0 }, ⟨true, ts, F64.ofInt 20, F64.ofInt 0⟩)

theorem episodes_well_formed_sample :
    (recordsOf 30000 [lowSample 0, lowSample 90000]).map (fun e => (e.kind, e.state)) =
      [("LIMIT_LOW", "OPEN"), ("LIMIT_LOW", "CLOSED"), ("LIMIT_LOW", "OPEN")] ∧
    Episodic (ofKind "LIMIT_LOW" (recordsOf 30000 [lowSample 0, lowSample 90000])) := by
  refine ⟨by decide +kernel, (episodes_well_formed 30000 [lowSample 0, lowSample 90000]
    (by simp [lowSample]) ⟨fun _ => ?_, fun _ => ?_, trivial⟩).1 "LIMIT_LOW"⟩
  · refine ⟨by decide, by decide, by decide, fun hset => absurd rfl hset, fun kind r hr => ?_⟩
    simp [runOf, start, new] at hr
  · have hruns : ((step (start 30000) (lowSample 0)).1.freezeRunStartMs,
        (step (start 30000) (lowSample 0)).1.limitRunStartMs) = (minLong, 0) := by
      decide +kernel
    simp only [Prod.mk.injEq] at hruns
    refine ⟨by decide, by decide, by decide +kernel, fun _ => by decide +kernel, fun kind r hr => ?_⟩
    unfold runOf at hr
    rw [hruns.1, hruns.2] at hr
    have hzero : r = 0 := by
      split at hr
      · simp at hr
      · split at hr
        · simpa using hr.symm
        · simp at hr
    rw [hzero]
    decide

/-- The difference of the times overflows, and a gap of some hundred million years closes nothing. -/
theorem overflowing_gap_closes_nothing :
    (∃ e, OpenIn (recordsOf 30000 [lowSample (-5000000000000000000)]) e) ∧
    (after 30000 [lowSample (-5000000000000000000)]).Gap 5000000000000000000 ∧
    (step (after 30000 [lowSample (-5000000000000000000)])
      (lowSample 5000000000000000000)).2 = [] := by
  have hrecords : (recordsOf 30000 [lowSample (-5000000000000000000)]).map
      (fun e => (e.kind, e.state)) = [("LIMIT_LOW", "OPEN")] := by
    decide +kernel
  obtain ⟨e, heq, hfields⟩ := List.map_eq_singleton_iff.mp hrecords
  rw [Prod.mk.injEq] at hfields
  refine ⟨⟨e, ?_, ?_⟩, by decide +kernel, by decide +kernel⟩
  · rw [heq]
    simp [ofKind]
  · rw [hfields.2]
    decide

end ConditionDetector

end OpenBridge.Conditions
