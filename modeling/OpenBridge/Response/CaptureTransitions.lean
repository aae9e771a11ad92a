import OpenBridge.Response.CaptureRing
import Mathlib.Data.List.GetD

/-!
# Response: what a call does to the events

Which event ends, which one opens and what is handed out, one lemma for each function of the capture
and its machine.
-/

namespace OpenBridge.Response

open OpenBridge.Foundation

namespace ResponseCapture

variable {c : ResponseCapture} {cfg : ResponseJobConfig} {f : SourceSupport} {e : ResponseEvent}

/-! ## The machine -/

structure Ends (m m' : CaptureStateMachine) (e : ResponseEvent) : Prop where
  endedEvents : m'.endedEvents = m.endedEvents ++ [e]
  open_ : m'.open_ = none
  limits : m'.maxCaptureS = m.maxCaptureS ∧ m'.minCaptureS = m.minCaptureS

theorem ends_endOpen {m : CaptureStateMachine} (hopen : m.open_ = some e)
    (captureState : CaptureState) (why : CensorReason) (state : State) (atS : ℚ) :
    Ends m (m.endOpen captureState why state atS) (e.ended captureState why atS) := by
  unfold CaptureStateMachine.endOpen
  rw [hopen]
  exact ⟨rfl, rfl, rfl, rfl⟩

theorem ends_censor {m : CaptureStateMachine} (hopen : m.open_ = some e) (why : CensorReason)
    (atS : ℚ) : Ends m (m.censor why atS) (e.ended .censored why atS) := by
  have h := ends_endOpen hopen .censored why .censored atS
  unfold CaptureStateMachine.censor
  rw [if_neg (by simp [hopen])]
  exact ⟨h.endedEvents, h.open_, h.limits⟩

theorem onSample_of_le {m : CaptureStateMachine} (hopen : m.open_ = some e) {nowS : ℚ}
    (hyoung : nowS - e.t0 ≤ m.maxCaptureS) (hstate : m.state = .candidate ∨ m.state = .capturing) :
    (m.onSample nowS).endedEvents = m.endedEvents ∧
      (∃ state, (m.onSample nowS).open_ = some { e with captureState := state }) ∧
      ((m.onSample nowS).state = .candidate ∨ (m.onSample nowS).state = .capturing) ∧
      (m.onSample nowS).maxCaptureS = m.maxCaptureS ∧
        (m.onSample nowS).minCaptureS = m.minCaptureS := by
  unfold CaptureStateMachine.onSample
  rw [hopen]
  dsimp only
  rw [if_neg (not_lt.mpr hyoung)]
  split
  · refine ⟨rfl, ⟨.capturing, ?_⟩, .inr rfl, rfl, rfl⟩
    unfold CaptureStateMachine.advance
    rw [hopen]
    rfl
  · exact ⟨rfl, ⟨e.captureState, hopen⟩, hstate, rfl, rfl⟩

theorem onSample_of_lt {m : CaptureStateMachine} (hopen : m.open_ = some e) {nowS : ℚ}
    (hold : m.maxCaptureS < nowS - e.t0) : m.onSample nowS = m.censor .captureMax nowS := by
  unfold CaptureStateMachine.onSample
  rw [hopen]
  exact if_pos hold

theorem censor_state {m : CaptureStateMachine} (hopen : m.open_ = some e) (why : CensorReason)
    (atS : ℚ) : (m.censor why atS).state = .censored := by
  unfold CaptureStateMachine.censor CaptureStateMachine.endOpen
  rw [hopen]
  rfl

theorem settled_congr {m : CaptureStateMachine} {e' : ResponseEvent}
    (hopen : c.machine.open_ = some e) (hopen' : m.open_ = some e') (ht0 : e'.t0 = e.t0) (nowS : ℚ) :
    { c with machine := m }.settled nowS = c.settled nowS := by
  unfold settled
  rw [hopen, hopen']
  dsimp only
  rw [ht0]
  rfl

theorem minCaptureS_le_of_settled (hopen : c.machine.open_ = some e) {nowS : ℚ}
    (h : c.settled nowS = true) : c.cfg.minCaptureS ≤ nowS - e.t0 := by
  unfold settled at h
  rw [hopen] at h
  dsimp only at h
  split at h
  · cases h
  · rename_i hshort
    exact not_lt.mp hshort

theorem ends_complete {m : CaptureStateMachine} {state : CaptureState}
    (hopen : m.open_ = some { e with captureState := state }) {nowS : ℚ}
    (hmin : m.minCaptureS ≤ nowS - e.t0) :
    (m.qualified nowS).state = .qualified ∧
      Ends m ((m.qualified nowS).complete nowS) (e.ended .complete .none nowS) := by
  have hqualified : m.qualified nowS = m.advance .qualified .qualified := by
    unfold CaptureStateMachine.qualified
    rw [hopen]
    exact if_neg (not_lt.mpr hmin)
  have hopen' : (m.advance .qualified .qualified).open_ =
      some { e with captureState := .qualified } := by
    unfold CaptureStateMachine.advance
    rw [hopen]
    rfl
  rw [hqualified]
  have hends := ends_endOpen hopen' .complete .none .complete nowS
  exact ⟨rfl, hends.endedEvents, hends.open_, hends.limits⟩

/-! ## Handing out -/

theorem close_state (c : ResponseCapture) (e : ResponseEvent) :
    ∃ ids, (c.close e).1 = { c with emitted := ids } := by
  unfold close
  split
  · exact ⟨c.emitted, rfl⟩
  · split
    · exact ⟨c.emitted, rfl⟩
    · dsimp only
      split <;> exact ⟨_, rfl⟩

theorem close_machine (c : ResponseCapture) (e : ResponseEvent) :
    (c.close e).1.machine = c.machine := by
  obtain ⟨ids, hstate⟩ := close_state c e
  rw [hstate]

theorem closeLast_eq {es : List ResponseEvent} (hnone : c.machine.open_ = none)
    (hended : c.machine.endedEvents = es ++ [e]) : c.closeLast = c.close e := by
  unfold closeLast
  rw [CaptureStateMachine.events, hnone, hended, Option.toList_none, List.append_nil,
    List.getLast?_concat]

theorem closeSuperseded_eq {es : List ResponseEvent} {next : ResponseEvent}
    (hopen : c.machine.open_ = some next) (hended : c.machine.endedEvents = es ++ [e]) :
    c.closeSuperseded = c.close e := by
  unfold closeSuperseded
  rw [CaptureStateMachine.events, hopen, hended, Option.toList_some, List.dropLast_concat,
    List.getLast?_concat]

theorem closeSuperseded_state (c : ResponseCapture) :
    ∃ ids, c.closeSuperseded.1 = { c with emitted := ids } := by
  unfold closeSuperseded
  split
  · exact ⟨c.emitted, rfl⟩
  · exact close_state c _

/-! ## Detection and supersession -/

theorem mem_of_mem_recent {nowS reachS : ℚ} {rows : List Row} {row : Row}
    (h : row ∈ recent nowS reachS rows) : row ∈ rows := by
  induction rows with
  | nil => exact h
  | cons first rest ih =>
    cases rest with
    | nil => exact h
    | cons next rest =>
      rw [recent] at h
      split at h
      · exact List.mem_cons_of_mem _ (ih h)
      · exact h

theorem freshCandidate_spec {rows : List Row} {signal : Row → ℚ}
    {found : ResponseEventDetector.Candidate} (h : c.freshCandidate rows signal = some found) :
    rows.getD found.index default ∈ rows ∧
      ∀ v ∈ c.lastEventT0, v < (rows.getD found.index default).tS := by
  obtain ⟨hdetect, hfresh⟩ := Option.filter_eq_some_iff.mp h
  have hindex := (ResponseEventDetector.detect_index hdetect).2
  rw [List.length_map] at hindex
  refine ⟨?_, fun v hv => ?_⟩
  · rw [List.getD_eq_getElem _ _ hindex]
    exact List.getElem_mem hindex
  · rw [Option.mem_def.mp hv] at hfresh
    simpa using hfresh

theorem detected_spec {mapped : Bool} {nowS : ℚ} (h : c.detected mapped nowS = some e) :
    ∃ row ∈ c.ring, (∀ v ∈ c.lastEventT0, v < row.tS) ∧
      ∃ type pathId pre post, e = newEvent row.tS type pathId pre post := by
  unfold detected at h
  split at h
  · cases h
  · dsimp only at h
    split at h
    · cases h
    · split at h
      · rename_i found hfound
        obtain ⟨hmem, hfresh⟩ := freshCandidate_spec hfound
        exact ⟨_, mem_of_mem_recent hmem, hfresh, _, _, _, _, (Option.some_inj.mp h).symm⟩
      · obtain ⟨found, hfound, rfl⟩ := Option.map_eq_some_iff.mp h
        obtain ⟨hmem, hfresh⟩ := freshCandidate_spec hfound
        exact ⟨_, mem_of_mem_recent hmem, hfresh, _, _, _, _, rfl⟩

theorem newEvent_t0 (t0 : ℚ) (type : EventType) (pathId : Path) (pre post : ℚ) :
    (newEvent t0 type pathId pre post).t0 = t0 := mul_div_cancel_right₀ _ (by norm_num)

theorem changed_cases (c : ResponseCapture) (mapped : Bool) (row : Row) :
    ((c.changed mapped row).2 = false ∧ ∃ since value,
      (since = c.changeSinceS ∨ since = none ∨ since = some row.tS) ∧
        (c.changed mapped row).1 = { c with changeSinceS := since, changeValue := value }) ∨
    ((c.changed mapped row).2 = true ∧ ∃ e since, c.machine.open_ = some e ∧
      c.changeSinceS = some since ∧ ∃ pathId pre post,
        (c.changed mapped row).1 =
          { c with
            lastEventT0 := some since
            changeSinceS := none
            machine := c.machine.onCandidate (newEvent since e.type pathId pre post) row.tS }) := by
  unfold changed
  split
  · unfold supersedeOnChange
    split
    · exact .inl ⟨rfl, _, _, .inl rfl, rfl⟩
    · rename_i e hopen
      split
      · exact .inl ⟨rfl, _, _, .inl rfl, rfl⟩
      · dsimp only
        split
        · exact .inl ⟨rfl, _, _, .inr (.inl rfl), rfl⟩
        · split
          · exact .inl ⟨rfl, _, _, .inr (.inr rfl), rfl⟩
          · rename_i since hsince
            split
            · exact .inl ⟨rfl, _, _, .inr (.inr rfl), rfl⟩
            · split
              · exact .inl ⟨rfl, _, _, .inl rfl, rfl⟩
              · exact .inr ⟨rfl, e, since, hopen, hsince, _, _, _, rfl⟩
  · exact .inl ⟨rfl, _, _, .inl rfl, rfl⟩

/-! ## The open event in every run -/

/-- The open event has no end yet and is in the first two states; the machine keeps its limits. -/
structure Live (cfg : ResponseJobConfig) (m : CaptureStateMachine) : Prop where
  opened : ∀ e ∈ m.open_, e.tEndMs = none ∧ (m.state = .candidate ∨ m.state = .capturing)
  maxCaptureS : m.maxCaptureS = cfg.maxCaptureS
  minCaptureS : m.minCaptureS = cfg.minCaptureS

variable {m : CaptureStateMachine} {nowS : ℚ}

theorem live_endOpen (h : Live cfg m) (captureState : CaptureState) (why : CensorReason)
    (state : State) (atS : ℚ) : Live cfg (m.endOpen captureState why state atS) := by
  unfold CaptureStateMachine.endOpen
  split
  · exact h
  · exact ⟨by simp, h.maxCaptureS, h.minCaptureS⟩

theorem live_censor (h : Live cfg m) (why : CensorReason) (atS : ℚ) :
    Live cfg (m.censor why atS) := by
  have hends := live_endOpen h .censored why .censored atS
  unfold CaptureStateMachine.censor
  split
  · exact h
  · refine ⟨fun e he => ?_, hends.maxCaptureS, hends.minCaptureS⟩
    exact hends.opened e he

theorem live_onSample (h : Live cfg m) (atS : ℚ) : Live cfg (m.onSample atS) := by
  unfold CaptureStateMachine.onSample
  split
  · exact h
  · rename_i e hopen
    split
    · exact live_censor h _ _
    · split
      · unfold CaptureStateMachine.advance
        refine ⟨fun e' he' => ?_, h.maxCaptureS, h.minCaptureS⟩
        rw [hopen] at he'
        obtain rfl := Option.some_inj.mp he'
        exact ⟨(h.opened e hopen).1, .inr rfl⟩
      · exact h

theorem live_onCandidate (h : Live cfg m) (hend : e.tEndMs = none) (atS : ℚ) :
    Live cfg (m.onCandidate e atS) := by
  unfold CaptureStateMachine.onCandidate
  split
  · have hcensor := live_censor h .supersededByEvent atS
    refine ⟨fun e' he' => ?_, hcensor.maxCaptureS, hcensor.minCaptureS⟩
    obtain rfl := Option.some_inj.mp he'
    exact ⟨hend, .inr rfl⟩
  · refine ⟨fun e' he' => ?_, h.maxCaptureS, h.minCaptureS⟩
    obtain rfl := Option.some_inj.mp he'
    exact ⟨hend, .inl rfl⟩

theorem endOpen_open (m : CaptureStateMachine) (captureState : CaptureState) (why : CensorReason)
    (state : State) (atS : ℚ) : (m.endOpen captureState why state atS).open_ = none := by
  unfold CaptureStateMachine.endOpen
  split
  · assumption
  · rfl

theorem live_qualified (h : Live cfg m) (atS : ℚ) (hstate : (m.qualified atS).state ≠ .qualified) :
    Live cfg (m.qualified atS) := by
  unfold CaptureStateMachine.qualified at hstate ⊢
  split
  · exact h
  · split
    · have hends := live_endOpen h .rejected .captureTooShort .rejected atS
      exact ⟨fun e he => hends.opened e he, hends.maxCaptureS, hends.minCaptureS⟩
    · rename_i hopen hlong
      rw [hopen] at hstate
      dsimp only at hstate
      rw [if_neg hlong] at hstate
      exact absurd rfl hstate

theorem qualified_limits (m : CaptureStateMachine) (atS : ℚ) :
    (m.qualified atS).maxCaptureS = m.maxCaptureS ∧
      (m.qualified atS).minCaptureS = m.minCaptureS := by
  unfold CaptureStateMachine.qualified
  split
  · exact ⟨rfl, rfl⟩
  · split
    · unfold CaptureStateMachine.reject CaptureStateMachine.endOpen
      dsimp only
      split <;> exact ⟨rfl, rfl⟩
    · exact ⟨rfl, rfl⟩

theorem live_complete (h : Live cfg m) (atS : ℚ) : Live cfg ((m.qualified atS).complete atS) := by
  obtain ⟨hmax, hmin⟩ := qualified_limits m atS
  have hnone := endOpen_open (m.qualified atS) .complete .none .complete atS
  unfold CaptureStateMachine.complete
  refine ⟨fun e he => ?_, ?_, ?_⟩
  · rw [hnone] at he
    cases he
  · unfold CaptureStateMachine.endOpen
    split
    · exact hmax.trans h.maxCaptureS
    · exact hmax.trans h.maxCaptureS
  · unfold CaptureStateMachine.endOpen
    split
    · exact hmin.trans h.minCaptureS
    · exact hmin.trans h.minCaptureS

theorem closeLast_machine (c : ResponseCapture) : c.closeLast.1.machine = c.machine := by
  unfold closeLast
  split
  · rfl
  · exact close_machine c _

theorem live_segment (h : Live cfg c.machine) (gap auto : Bool) (tS : ℚ) :
    Live cfg (c.segment gap auto tS).1.machine := by
  unfold segment
  split
  · exact h
  · split
    · rw [closeLast_machine]
      exact live_censor h _ _
    · split
      · rw [closeLast_machine]
        exact live_censor h _ _
      · exact h

theorem live_detect (h : Live cfg c.machine) (mapped : Bool) (nowS : ℚ) :
    Live cfg (c.detect mapped nowS).machine := by
  unfold detect
  split
  · exact h
  · rename_i e hdetected
    obtain ⟨row, -, -, type, pathId, pre, post, rfl⟩ := detected_spec hdetected
    exact live_onSample (live_onCandidate h rfl _) nowS

theorem live_changed (h : Live cfg c.machine) (mapped : Bool) (row : Row) :
    Live cfg (c.changed mapped row).1.machine := by
  rcases changed_cases c mapped row with
    ⟨-, since, value, -, hstate⟩ | ⟨-, e, since, -, -, pathId, pre, post, hstate⟩
  · rw [hstate]
    exact h
  · rw [hstate]
    exact live_onCandidate h rfl _

theorem live_finish (h : Live cfg c.machine) (nowS : ℚ) : Live cfg (c.finish nowS).1.machine := by
  have hsample := live_onSample h nowS
  unfold finish
  dsimp only
  split
  · rw [closeLast_machine]
    exact hsample
  · split
    · split
      · rw [closeLast_machine]
        exact live_complete hsample nowS
      · rename_i hstate
        rw [closeLast_machine]
        exact live_qualified hsample nowS hstate
    · exact hsample

def superseded (c : ResponseCapture) (mapped : Bool) (row : Row) : ResponseCapture × List Closed :=
  if (c.changed mapped row).2 then (c.changed mapped row).1.closeSuperseded
  else ((c.changed mapped row).1, [])

theorem observe_eq (c : ResponseCapture) (mapped : Bool) (row : Row) : c.observe mapped row =
    (((c.superseded mapped row).1.finish row.tS).1,
      (c.superseded mapped row).2 ++ ((c.superseded mapped row).1.finish row.tS).2) := rfl

theorem superseded_state (c : ResponseCapture) (mapped : Bool) (row : Row) :
    ∃ ids, (c.superseded mapped row).1 = { (c.changed mapped row).1 with emitted := ids } := by
  unfold superseded
  split
  · exact closeSuperseded_state _
  · exact ⟨_, rfl⟩

theorem sameFeed_superseded (c : ResponseCapture) (mapped : Bool) (row : Row) :
    SameFeed c (c.superseded mapped row).1 := by
  obtain ⟨ids, hstate⟩ := superseded_state c mapped row
  rw [hstate]
  exact (sameFeed_changed c mapped row).trans ⟨rfl, rfl, rfl, rfl⟩

theorem exists_open_superseded (hopen : c.machine.open_ = some e) (mapped : Bool) (row : Row) :
    ∃ e', (c.superseded mapped row).1.machine.open_ = some e' := by
  obtain ⟨ids, hmarked⟩ := superseded_state c mapped row
  rw [hmarked]
  rcases changed_cases c mapped row with
    ⟨-, since, value, -, hstate⟩ | ⟨-, e', since, -, -, pathId, pre, post, hstate⟩
  · exact ⟨e, by rw [hstate]; exact hopen⟩
  · rw [hstate]
    unfold CaptureStateMachine.onCandidate
    rw [if_pos (by rw [hopen]; rfl)]
    exact ⟨_, rfl⟩

theorem live_superseded (h : Live cfg c.machine) (mapped : Bool) (row : Row) :
    Live cfg (c.superseded mapped row).1.machine := by
  obtain ⟨ids, hstate⟩ := superseded_state c mapped row
  rw [hstate]
  exact live_changed h mapped row

theorem live_examine (h : Live cfg c.machine) (mapped : Bool) (row : Row) :
    Live cfg (c.examine mapped row).1.machine := by
  unfold examine
  split
  · exact h
  · split
    · dsimp only
      split
      · exact live_detect h mapped row.tS
      · exact h
    · exact live_finish (live_superseded h mapped row) row.tS

theorem live_step (h : Live cfg c.machine) (i : CaptureInput) : Live cfg (c.step i).1.machine := by
  cases i with
  | health ineligible atS =>
    unfold step onHealth
    dsimp only
    split
    · rw [closeLast_machine]
      exact live_censor h _ _
    · exact h
  | sample s vpUsable =>
    rw [step]
    cases htaken : c.taken s vpUsable with
    | false =>
      rw [onSample_of_not_taken htaken]
      unfold dropped
      split <;> exact h
    | true =>
      rw [onSample_of_taken htaken]
      have hlive : Live cfg (c.admitted s vpUsable).machine := live_segment h _ _ _
      exact live_examine hlive _ _

theorem live_create (cfg : ResponseJobConfig) : Live cfg (create cfg).machine :=
  ⟨by simp [create], rfl, rfl⟩

theorem live_after (cfg : ResponseJobConfig) (inputs : List CaptureInput) :
    Live cfg (after cfg inputs).machine :=
  Machine.invariant (fun c : ResponseCapture => Live cfg c.machine) (live_create cfg)
    (fun _ i h => live_step h i) inputs

theorem Live.ends_complete (h : Live c.cfg c.machine) (hopen : c.machine.open_ = some e)
    (hyoung : nowS - e.t0 ≤ c.machine.maxCaptureS) (hsettled : c.settled nowS = true) :
    ((c.machine.onSample nowS).qualified nowS).state = .qualified ∧
      Ends c.machine (((c.machine.onSample nowS).qualified nowS).complete nowS)
        (e.ended .complete .none nowS) := by
  obtain ⟨hended, ⟨state, hopen'⟩, -, hmax, hmin⟩ :=
    onSample_of_le hopen hyoung (h.opened e hopen).2
  have hlong := minCaptureS_le_of_settled hopen hsettled
  rw [← h.minCaptureS, ← hmin] at hlong
  obtain ⟨hqualified, hends⟩ := ResponseCapture.ends_complete hopen' hlong
  exact ⟨hqualified, hends.endedEvents.trans (by rw [hended]), hends.open_,
    hends.limits.1.trans hmax, hends.limits.2.trans hmin⟩

theorem Live.finish_cases (h : Live c.cfg c.machine) (hopen : c.machine.open_ = some e) :
    (c.machine.maxCaptureS < nowS - e.t0 ∧
      c.finish nowS = { c with machine := c.machine.censor .captureMax nowS }.closeLast) ∨
    (nowS - e.t0 ≤ c.machine.maxCaptureS ∧ c.settled nowS = true ∧
      c.finish nowS = { c with
        machine := ((c.machine.onSample nowS).qualified nowS).complete nowS }.closeLast) ∨
    (nowS - e.t0 ≤ c.machine.maxCaptureS ∧ c.settled nowS = false ∧
      c.finish nowS = ({ c with machine := c.machine.onSample nowS }, [])) := by
  unfold finish
  dsimp only
  rcases lt_or_ge c.machine.maxCaptureS (nowS - e.t0) with hold | hyoung
  · rw [onSample_of_lt hopen hold, if_pos (censor_state hopen _ _)]
    exact .inl ⟨hold, rfl⟩
  · obtain ⟨-, ⟨state, hopen'⟩, hstate, -⟩ := onSample_of_le hopen hyoung (h.opened e hopen).2
    have hgoing : (c.machine.onSample nowS).state ≠ .censored := by
      rcases hstate with hstate | hstate <;> rw [hstate] <;> nofun
    rw [if_neg hgoing, settled_congr hopen hopen' rfl]
    cases hsettled : c.settled nowS with
    | false => exact .inr (.inr ⟨hyoung, rfl, rfl⟩)
    | true =>
      rw [if_pos rfl, if_pos (h.ends_complete hopen hyoung hsettled).1]
      exact .inr (.inl ⟨hyoung, rfl, rfl⟩)

/-! ## What is handed out -/

variable {b : Closed}

theorem mem_close (h : b ∈ (c.close e).2) :
    b.event = e ∧ ∃ tEndMs, e.tEndMs = some tEndMs ∧ b = c.bundle e (tEndMs / 1000) := by
  unfold close at h
  split at h
  · cases h
  · rename_i tEndMs hend
    split at h
    · cases h
    · dsimp only at h
      split at h
      · cases h
      · obtain rfl := List.mem_singleton.mp h
        exact ⟨rfl, tEndMs, hend, rfl⟩

theorem mem_closeLast_of_ends {captureState : CaptureState} {why : CensorReason} {atS : ℚ}
    (hends : Ends c.machine m (e.ended captureState why atS))
    (h : b ∈ { c with machine := m }.closeLast.2) :
    b = c.bundle (e.ended captureState why atS) atS := by
  have heq : { c with machine := m }.closeLast = { c with machine := m }.close _ :=
    closeLast_eq hends.open_ hends.endedEvents
  rw [heq] at h
  obtain ⟨-, tEndMs, hend, hbundle⟩ := mem_close h
  obtain rfl := Option.some_inj.mp hend
  rw [hbundle, mul_div_cancel_right₀ atS (by norm_num)]
  rfl

theorem censored_of_mem_closeLast {why : CensorReason} {atS : ℚ}
    (hopen : c.machine.open_ = some e)
    (h : b ∈ { c with machine := c.machine.censor why atS }.closeLast.2) :
    b.event.captureState = .censored := by
  rw [mem_closeLast_of_ends (ends_censor hopen why atS) h]
  rfl

theorem censored_of_mem_segment {gap auto : Bool} {tS : ℚ} (h : b ∈ (c.segment gap auto tS).2) :
    b.event.captureState = .censored := by
  unfold segment at h
  split at h
  · cases h
  · rename_i hsome
    obtain ⟨e, hopen⟩ := Option.ne_none_iff_exists'.mp (mt Option.isNone_iff_eq_none.mpr hsome)
    split at h
    · exact censored_of_mem_closeLast hopen h
    · split at h
      · exact censored_of_mem_closeLast hopen h
      · cases h

theorem censored_of_mem_onHealth {ineligible : Bool} {atS : ℚ}
    (h : b ∈ (c.onHealth ineligible atS).2) : b.event.captureState = .censored := by
  unfold onHealth at h
  dsimp only at h
  split at h
  · rename_i hcut
    rw [Bool.and_eq_true] at hcut
    obtain ⟨e, hopen⟩ := Option.isSome_iff_exists.mp hcut.2
    exact censored_of_mem_closeLast (c := { c with healthIneligible := ineligible }) hopen h
  · cases h

theorem censored_of_mem_superseded {mapped : Bool} {row : Row}
    (h : b ∈ (c.superseded mapped row).2) : b.event.captureState = .censored := by
  rcases changed_cases c mapped row with
    ⟨hflag, -⟩ | ⟨hflag, e, since, hopen, -, pathId, pre, post, hstate⟩
  · unfold superseded at h
    rw [hflag, if_neg Bool.false_ne_true] at h
    cases h
  · have hends := ends_censor hopen .supersededByEvent row.tS
    unfold superseded at h
    rw [hflag, if_pos rfl, hstate] at h
    unfold CaptureStateMachine.onCandidate at h
    rw [if_pos (by rw [hopen]; rfl)] at h
    rw [closeSuperseded_eq rfl hends.endedEvents] at h
    rw [(mem_close h).1]
    rfl

theorem Live.settled_of_mem_finish (h : Live c.cfg c.machine) (hopen : c.machine.open_ = some e)
    (hb : b ∈ (c.finish nowS).2) (hnot : b.event.captureState ≠ .censored) :
    c.settled nowS = true ∧ b = c.bundle (e.ended .complete .none nowS) nowS := by
  rcases h.finish_cases hopen with ⟨-, heq⟩ | ⟨hyoung, hsettled, heq⟩ | ⟨-, -, heq⟩
  · rw [heq] at hb
    exact absurd (censored_of_mem_closeLast hopen hb) hnot
  · rw [heq] at hb
    exact ⟨hsettled, mem_closeLast_of_ends (h.ends_complete hopen hyoung hsettled).2 hb⟩
  · rw [heq] at hb
    cases hb

def guarded (c : ResponseCapture) (s : ResponseSample) (vpUsable : Bool) : ResponseCapture :=
  ((c.admitted s vpUsable).superseded (vpMapped s vpUsable) (row s vpUsable)).1

theorem live_guarded (h : Live cfg c.machine) (s : ResponseSample) (vpUsable : Bool) :
    Live cfg (c.guarded s vpUsable).machine := by
  have hadmitted : Live cfg (c.admitted s vpUsable).machine := live_segment h _ _ _
  exact live_superseded hadmitted _ _

theorem sameFeed_guarded (c : ResponseCapture) (s : ResponseSample) (vpUsable : Bool) :
    SameFeed (c.admitted s vpUsable) (c.guarded s vpUsable) := sameFeed_superseded _ _ _

theorem guarded_cfg (c : ResponseCapture) (s : ResponseSample) (vpUsable : Bool) :
    (c.guarded s vpUsable).cfg = c.cfg := by
  have hsegmented : (c.segmented s vpUsable).1.cfg = c.cfg := (sameFeed_segment c _ _ _).cfg
  exact (sameFeed_guarded c s vpUsable).cfg.trans hsegmented

theorem exists_settled_of_mem_onSample {s : ResponseSample} {vpUsable : Bool}
    (hlive : Live c.cfg c.machine) (hb : b ∈ (c.onSample s vpUsable).2)
    (hnot : b.event.captureState ≠ .censored) :
    c.taken s vpUsable = true ∧ SameFeed (c.guarded s vpUsable) (c.onSample s vpUsable).1 ∧
      ∃ e, (c.guarded s vpUsable).machine.open_ = some e ∧
        (c.guarded s vpUsable).settled (row s vpUsable).tS = true ∧
        b = (c.guarded s vpUsable).bundle
          (e.ended .complete .none (row s vpUsable).tS) (row s vpUsable).tS := by
  cases htaken : c.taken s vpUsable with
  | false =>
    rw [onSample_of_not_taken htaken] at hb
    cases hb
  | true =>
    refine ⟨rfl, ?_⟩
    have hguarded := live_guarded hlive s vpUsable
    rw [← guarded_cfg c s vpUsable] at hguarded
    rw [onSample_of_taken htaken] at hb ⊢
    unfold guarded at hguarded ⊢
    generalize c.admitted s vpUsable = a at hb hguarded ⊢
    have hb := (List.mem_append.mp hb).resolve_left fun h => hnot (censored_of_mem_segment h)
    unfold examine at hb ⊢
    split at hb
    · cases hb
    · split at hb
      · cases hb
      · rename_i hineligible hopened
        rw [if_neg hineligible, if_neg hopened]
        have hb := (List.mem_append.mp hb).resolve_left fun h => hnot (censored_of_mem_superseded h)
        obtain ⟨e₀, hopen₀⟩ :=
          Option.ne_none_iff_exists'.mp (mt Option.isNone_iff_eq_none.mpr hopened)
        obtain ⟨e, hopen⟩ := exists_open_superseded hopen₀ (vpMapped s vpUsable) (row s vpUsable)
        exact ⟨sameFeed_finish _ _, e, hopen, hguarded.settled_of_mem_finish hopen hb hnot⟩

theorem close_length (c : ResponseCapture) (e : ResponseEvent) : (c.close e).2.length ≤ 1 := by
  unfold close
  split
  · exact Nat.zero_le 1
  · split
    · exact Nat.zero_le 1
    · dsimp only
      split
      · exact Nat.zero_le 1
      · exact le_refl 1

theorem closeLast_length (c : ResponseCapture) : c.closeLast.2.length ≤ 1 := by
  unfold closeLast
  split
  · exact Nat.zero_le 1
  · exact close_length c _

theorem finish_length (c : ResponseCapture) (nowS : ℚ) : (c.finish nowS).2.length ≤ 1 := by
  unfold finish
  dsimp only
  split
  · exact closeLast_length _
  · split
    · split
      · exact closeLast_length _
      · exact closeLast_length _
    · exact Nat.zero_le 1

theorem pairwise_onSample (c : ResponseCapture) (s : ResponseSample) (vpUsable : Bool) :
    (c.onSample s vpUsable).2.Pairwise fun a _ => a.event.captureState = .censored := by
  cases htaken : c.taken s vpUsable with
  | false =>
    rw [onSample_of_not_taken htaken]
    exact List.Pairwise.nil
  | true =>
    have hcut : ∀ a ∈ (c.segmented s vpUsable).2, a.event.captureState = .censored :=
      fun a ha => censored_of_mem_segment ha
    rw [onSample_of_taken htaken]
    refine List.pairwise_append.mpr
      ⟨List.pairwise_of_forall_mem_list fun a ha _ _ => hcut a ha, ?_, fun a ha _ _ => hcut a ha⟩
    unfold examine
    split
    · exact List.Pairwise.nil
    · split
      · exact List.Pairwise.nil
      · rw [observe_eq]
        refine List.pairwise_append.mpr ⟨?_, ?_, fun a ha _ _ => censored_of_mem_superseded ha⟩
        · exact List.pairwise_of_forall_mem_list fun a ha _ _ => censored_of_mem_superseded ha
        · exact List.pairwise_of_forall_sublist fun hsub =>
            absurd (hsub.length_le.trans (finish_length _ _)) (Nat.not_succ_le_self 1)

theorem onSample_cfg (c : ResponseCapture) (s : ResponseSample) (vpUsable : Bool) :
    (c.onSample s vpUsable).1.cfg = c.cfg := by
  cases htaken : c.taken s vpUsable with
  | false =>
    rw [onSample_of_not_taken htaken]
    exact (sameFeed_dropped c _).cfg
  | true =>
    have hsegmented : (c.segmented s vpUsable).1.cfg = c.cfg := (sameFeed_segment c _ _ _).cfg
    rw [onSample_of_taken htaken]
    exact (sameFeed_examine _ _ _).cfg.trans hsegmented

end ResponseCapture

end OpenBridge.Response
