import OpenBridge.Response.CaptureTransitions

/-!
# Response: captures lose nothing and never bridge

Events open at ever later samples of the current support, and each that ends is handed out in one
bundle of close samples from its window.
-/

namespace OpenBridge.Response

open OpenBridge.Foundation

structure Closed.Sound (cfg : ResponseJobConfig) (b : Closed) : Prop where
  spaced : Spaced DataPoint.t cfg.maxGapS b.data.points
  inside : ∀ p ∈ b.data.points, b.data.t0 - cfg.preSupportS ≤ p.t ∧ p.t ≤ b.data.tEnd
  bounds : b.data.t0 = b.event.t0 ∧ b.event.tEndMs = some (b.data.tEnd * 1000)
  ordered : b.data.t0 ≤ b.data.tEnd
  sequence : b.event.inputSequence.Pairwise fun x y => x.tMs < y.tMs

namespace ResponseCapture

/-- What is promised of a run. -/
structure CapturesSound (cfg : ResponseJobConfig) (inputs : List CaptureInput) : Prop where
  /-- At most one event is open. -/
  oneOpen : ((after cfg inputs).machine.events.filter fun e => e.tEndMs.isNone).length ≤ 1
  /-- The events start later and later. -/
  increasing : ((after cfg inputs).machine.events.map ResponseEvent.t0).Pairwise (· < ·)
  /-- Each starts at a sample of the support that it is opened on. -/
  supported : ∀ pre i, pre ++ [i] <+: inputs →
    ∀ e ∈ (after cfg (pre ++ [i])).machine.events.drop (after cfg pre).machine.events.length,
      e.t0 ∈ (SourceSupport.after cfg.maxGapS (pre ++ [i])).times
  /-- The ended events are handed out, one bundle each. -/
  handed : (handedOut cfg inputs).map Closed.event =
    (after cfg inputs).machine.events.filter fun e => e.tEndMs.isSome
  sound : ∀ b ∈ handedOut cfg inputs, b.Sound cfg

variable {c : ResponseCapture} {cfg : ResponseJobConfig} {f : SourceSupport} {outs : List Closed}
  {times : List ℚ} {pending : List ResponseEvent} {e : ResponseEvent} {s : ResponseSample} {vpUsable : Bool}

/-! ## Where nothing is lost -/

/-- The window of an event that ends holds the samples that a bundle needs. -/
def Roomy (c : ResponseCapture) (e : ResponseEvent) (tEnd : ℚ) : Prop :=
  4 ≤ (bundleRows c.ring (e.t0 - c.cfg.preSupportS) tEnd).length

/-- A trigger may end the open event before the sample joins the ring. -/
def RegularCut (c : ResponseCapture) (gap auto : Bool) (tS : ℚ) : Prop :=
  ∀ e ∈ c.machine.open_,
    (gap = true → Roomy c e (c.lastTs.getD tS)) ∧
      (gap = false → c.lastMode.any (auto != ·) && !auto → Roomy c e tS)

/-- A sample that has joined the ring opens no event that is too old, supersedes the open one at a
change after its start only, and ends none whose window is too empty. -/
structure RegularTurn (c : ResponseCapture) (vpMapped : Bool) (row : Row) : Prop where
  young : c.machine.open_ = none → row.auto && row.good → ∀ e ∈ c.detected vpMapped row.tS,
    row.tS - e.t0 ≤ c.cfg.maxCaptureS
  later : (c.changed vpMapped row).2 = true → ∀ e ∈ c.machine.open_, ∀ since ∈ c.changeSinceS,
    e.t0 < since ∧ Roomy c e row.tS
  ending : ∀ e ∈ (c.changed vpMapped row).1.machine.open_,
    c.cfg.maxCaptureS < row.tS - e.t0 ∨ (c.changed vpMapped row).1.settled row.tS →
      Roomy c e row.tS

def Regular (c : ResponseCapture) : CaptureInput → Prop
  | .health ineligible atS =>
      ineligible = true → ∀ e ∈ c.machine.open_, e.t0 ≤ atS ∧ Roomy c e atS
  | .sample s vpUsable =>
      c.taken s vpUsable = true →
        RegularCut c (c.gap s vpUsable) s.isAutoMode (row s vpUsable).tS ∧
          ((c.admitted s vpUsable).healthIneligible = false →
            RegularTurn (c.admitted s vpUsable) (vpMapped s vpUsable) (row s vpUsable))

instance (c : ResponseCapture) (e : ResponseEvent) (tEnd : ℚ) : Decidable (Roomy c e tEnd) :=
  inferInstanceAs (Decidable (4 ≤ _))

instance (c : ResponseCapture) (gap auto : Bool) (tS : ℚ) : Decidable (RegularCut c gap auto tS) :=
  inferInstanceAs (Decidable (∀ e ∈ c.machine.open_,
    (gap = true → Roomy c e (c.lastTs.getD tS)) ∧
      (gap = false → c.lastMode.any (auto != ·) && !auto → Roomy c e tS)))

instance (c : ResponseCapture) (mapped : Bool) (row : Row) : Decidable (RegularTurn c mapped row) :=
  decidable_of_iff
    ((c.machine.open_ = none → row.auto && row.good → ∀ e ∈ c.detected mapped row.tS,
        row.tS - e.t0 ≤ c.cfg.maxCaptureS) ∧
      ((c.changed mapped row).2 = true → ∀ e ∈ c.machine.open_, ∀ since ∈ c.changeSinceS,
        e.t0 < since ∧ Roomy c e row.tS) ∧
      ∀ e ∈ (c.changed mapped row).1.machine.open_,
        c.cfg.maxCaptureS < row.tS - e.t0 ∨ (c.changed mapped row).1.settled row.tS →
          Roomy c e row.tS)
    ⟨fun h => ⟨h.1, h.2.1, h.2.2⟩, fun h => ⟨h.young, h.later, h.ending⟩⟩

instance (c : ResponseCapture) : ∀ i, Decidable (Regular c i)
  | .health ineligible atS => inferInstanceAs (Decidable (ineligible = true →
      ∀ e ∈ c.machine.open_, e.t0 ≤ atS ∧ Roomy c e atS))
  | .sample s vpUsable => inferInstanceAs (Decidable (c.taken s vpUsable = true →
      RegularCut c (c.gap s vpUsable) s.isAutoMode (row s vpUsable).tS ∧
        ((c.admitted s vpUsable).healthIneligible = false →
          RegularTurn (c.admitted s vpUsable) (vpMapped s vpUsable) (row s vpUsable))))

/-! ## The invariant -/

/-- An event as the capture makes it: named by its start, no later than the last sample, with its
changes in order. -/
structure Known (lastTs : Option ℚ) (e : ResponseEvent) : Prop where
  named : e.eventId = idFor (truncate e.t0Ms) e.type
  whole : ∃ n : ℤ, e.t0Ms = n
  past : ∃ last ∈ lastTs, e.t0 ≤ last
  sequence : e.inputSequence.Pairwise fun x y => x.tMs < y.tMs
  upto : ∀ change ∈ e.inputSequence, change.tMs ≤ e.t0Ms

/-- How the events of a capture stand to what was handed out and to the support; the pending ones have
ended and are still to be handed out. -/
structure EventsSound (cfg : ResponseJobConfig) (c : ResponseCapture) (times : List ℚ)
    (outs : List Closed) (pending : List ResponseEvent) : Prop where
  handed : outs.map Closed.event ++ pending = c.machine.endedEvents
  increasing : (c.machine.events.map ResponseEvent.t0).Pairwise (· < ·)
  known : ∀ e ∈ c.machine.events, Known c.lastTs e
  ended : ∀ e ∈ c.machine.endedEvents, e.tEndMs.isSome = true
  opened : ∀ e ∈ c.machine.open_, e.tEndMs = none ∧ e.t0 ∈ times ∧
    (c.machine.state = .candidate ∨ c.machine.state = .capturing)
  marked : ∀ id ∈ c.emitted, ∃ b ∈ outs, b.event.eventId = id
  fresh : ∀ t ∈ times, (∀ v ∈ c.lastEventT0, v < t) → ∀ e ∈ c.machine.events, e.t0 < t
  change : ∀ v ∈ c.changeSinceS, (∃ last ∈ c.lastTs, v ≤ last) ∧ (v ∈ times ∨ ∀ t ∈ times, v < t)
  limits : c.machine.maxCaptureS = cfg.maxCaptureS ∧ c.machine.minCaptureS = cfg.minCaptureS
  sound : ∀ b ∈ outs, b.Sound cfg

theorem eventsSound_create (cfg : ResponseJobConfig) : EventsSound cfg (create cfg) [] [] [] where
  handed := rfl
  increasing := List.Pairwise.nil
  known := by simp [create, CaptureStateMachine.events]
  ended := by simp [create]
  opened := by simp [create]
  marked := by simp [create]
  fresh := by simp
  change := by simp [create]
  limits := ⟨rfl, rfl⟩
  sound := by simp

theorem t0Ms_eq (e : ResponseEvent) : e.t0Ms = e.t0 * 1000 := by
  rw [ResponseEvent.t0, div_mul_cancel₀ _ (by norm_num)]

theorem Known.t0_eq {lastTs : Option ℚ} {a b : ResponseEvent} (ha : Known lastTs a)
    (hb : Known lastTs b) (hid : a.eventId = b.eventId) : a.t0 = b.t0 := by
  obtain ⟨m, hm⟩ := ha.whole
  obtain ⟨n, hn⟩ := hb.whole
  rw [ha.named, hb.named, hm, hn, truncate_intCast, truncate_intCast] at hid
  rw [ResponseEvent.t0, ResponseEvent.t0, hm, hn, show m = n from congrArg EventId.t0Ms hid]

theorem Known.mono {last next : Option ℚ} (h : Known last e)
    (hle : ∀ l ∈ last, ∃ n ∈ next, l ≤ n) : Known next e where
  named := h.named
  whole := h.whole
  past := by
    obtain ⟨l, hl, hel⟩ := h.past
    obtain ⟨n, hn, hln⟩ := hle l hl
    exact ⟨n, hn, hel.trans hln⟩
  sequence := h.sequence
  upto := h.upto

theorem EventsSound.known_open (h : EventsSound cfg c times outs pending)
    (hopen : c.machine.open_ = some e) : Known c.lastTs e :=
  h.known e (by rw [CaptureStateMachine.events, hopen]; simp)

theorem EventsSound.not_marked (h : EventsSound cfg c times outs [e]) : e.eventId ∉ c.emitted := by
  intro hmem
  obtain ⟨b, hb, hid⟩ := h.marked _ hmem
  have hinc := h.increasing
  rw [CaptureStateMachine.events, ← h.handed, List.map_append, List.map_append] at hinc
  have hlt := (List.pairwise_append.mp (List.pairwise_append.mp hinc).1).2.2 _
    (List.mem_map_of_mem (List.mem_map_of_mem hb)) _ (List.mem_singleton_self _)
  have hended : ∀ e' ∈ outs.map Closed.event ++ [e], Known c.lastTs e' := fun e' he' =>
    h.known e' (List.mem_append_left _ (h.handed ▸ he'))
  exact hlt.ne ((hended _ (List.mem_append_left _ (List.mem_map_of_mem hb))).t0_eq
    (hended e (List.mem_append_right _ (List.mem_singleton_self e))) hid)

theorem EventsSound.le_open (h : EventsSound cfg c times outs pending) {open_ : ResponseEvent}
    (hopen : c.machine.open_ = some open_) (he : e ∈ c.machine.events) : e.t0 ≤ open_.t0 := by
  have hinc := h.increasing
  rw [CaptureStateMachine.events, hopen, List.map_append, List.pairwise_append] at hinc
  rw [CaptureStateMachine.events, hopen, List.mem_append] at he
  rcases he with he | he
  · exact (hinc.2.2 _ (List.mem_map_of_mem he) _ (List.mem_singleton_self _)).le
  · rw [List.mem_singleton.mp he]

/-! ## Ending, opening and handing out -/

theorem EventsSound.endOpen (h : EventsSound cfg c times outs []) (hopen : c.machine.open_ = some e)
    {m : CaptureStateMachine} {state : CaptureState} {why : CensorReason} {tEnd : ℚ}
    (hm : Ends c.machine m (e.ended state why tEnd)) :
    EventsSound cfg { c with machine := m } times outs [e.ended state why tEnd] where
  handed := by
    have hhanded := h.handed
    rw [List.append_nil] at hhanded
    rw [hm.endedEvents, hhanded]
  increasing := by
    have hinc := h.increasing
    rw [CaptureStateMachine.events, hopen] at hinc
    rw [CaptureStateMachine.events, hm.endedEvents, hm.open_]
    simpa using hinc
  known e' he' := by
    rw [CaptureStateMachine.events, hm.endedEvents, hm.open_, Option.toList_none, List.append_nil,
      List.mem_append, List.mem_singleton] at he'
    rcases he' with he' | rfl
    · exact h.known e' (List.mem_append_left _ he')
    · exact ⟨(h.known_open hopen).named, (h.known_open hopen).whole, (h.known_open hopen).past,
        (h.known_open hopen).sequence, (h.known_open hopen).upto⟩
  ended e' he' := by
    rw [hm.endedEvents, List.mem_append, List.mem_singleton] at he'
    rcases he' with he' | rfl
    · exact h.ended e' he'
    · rfl
  opened e' he' := by
    rw [hm.open_] at he'
    cases he'
  marked := h.marked
  fresh t ht hlast e' he' := by
    have hfresh := h.fresh t ht hlast
    rw [CaptureStateMachine.events, hm.endedEvents, hm.open_, Option.toList_none, List.append_nil,
      List.mem_append, List.mem_singleton] at he'
    rcases he' with he' | rfl
    · exact hfresh e' (List.mem_append_left _ he')
    · exact hfresh e (by rw [CaptureStateMachine.events, hopen]; simp)
  change := h.change
  limits := ⟨hm.limits.1.trans h.limits.1, hm.limits.2.trans h.limits.2⟩
  sound := h.sound

theorem EventsSound.opens (h : EventsSound cfg c times outs pending) (hnone : c.machine.open_ = none)
    {m : CaptureStateMachine} (hended : m.endedEvents = c.machine.endedEvents)
    (hopen : m.open_ = some e) (hstate : m.state = .candidate ∨ m.state = .capturing)
    (hlimits : m.maxCaptureS = c.machine.maxCaptureS ∧ m.minCaptureS = c.machine.minCaptureS)
    (hknown : Known c.lastTs e) (hend : e.tEndMs = none) (htimes : e.t0 ∈ times)
    (hlater : ∀ e' ∈ c.machine.events, e'.t0 < e.t0) {since : Option ℚ}
    (hsince : since = c.changeSinceS ∨ since = none) {start : ℚ} (hstart : e.t0 = start)
    (mapped : Bool) :
    EventsSound cfg { c with
      machine := m, lastEventT0 := some start, changeSinceS := since, vpMappedAtCapture := mapped }
      times outs pending where
  handed := h.handed.trans hended.symm
  increasing := by
    have hinc := h.increasing
    rw [CaptureStateMachine.events, hnone, Option.toList_none, List.append_nil] at hinc
    rw [CaptureStateMachine.events, hended, hopen, Option.toList_some, List.map_append,
      List.map_singleton]
    refine List.pairwise_append.mpr ⟨hinc, List.pairwise_singleton _ _, fun t ht t' ht' => ?_⟩
    obtain ⟨e', he', rfl⟩ := List.mem_map.mp ht
    rw [List.mem_singleton.mp ht']
    exact hlater e' (List.mem_append_left _ he')
  known e' he' := by
    rw [CaptureStateMachine.events, hended, hopen, Option.toList_some, List.mem_append,
      List.mem_singleton] at he'
    rcases he' with he' | rfl
    · exact h.known e' (List.mem_append_left _ he')
    · exact hknown
  ended e' he' := by
    rw [hended] at he'
    exact h.ended e' he'
  opened e' he' := by
    rw [hopen] at he'
    obtain rfl := Option.some_inj.mp he'
    exact ⟨hend, htimes, hstate⟩
  marked := h.marked
  fresh t ht hlast e' he' := by
    have ht0 : e.t0 < t := hstart ▸ hlast start rfl
    rw [CaptureStateMachine.events, hended, hopen, Option.toList_some, List.mem_append,
      List.mem_singleton] at he'
    rcases he' with he' | rfl
    · exact (hlater e' (List.mem_append_left _ he')).trans ht0
    · exact ht0
  change v hv := by
    rcases hsince with rfl | rfl
    · exact h.change v hv
    · cases hv
  limits := ⟨hlimits.1.trans h.limits.1, hlimits.2.trans h.limits.2⟩
  sound := h.sound

theorem RingSound.bundle_sound (hr : RingSound cfg c f) {tEnd : ℚ}
    (hend : e.tEndMs = some (tEnd * 1000)) (hle : e.t0 ≤ tEnd)
    (hsequence : e.inputSequence.Pairwise fun x y => x.tMs < y.tMs) :
    (c.bundle e tEnd).Sound cfg where
  spaced := hr.spaced_bundle e tEnd
  inside p hp := by
    obtain ⟨-, -, -, hin⟩ := mem_bundle_points hp
    rw [hr.cfg_eq] at hin
    exact hin
  bounds := ⟨rfl, hend⟩
  ordered := hle
  sequence := hsequence

theorem EventsSound.handedOut (h : EventsSound cfg c times outs [e]) (hr : RingSound cfg c f)
    {tEnd : ℚ} (hend : e.tEndMs = some (tEnd * 1000)) (hle : e.t0 ≤ tEnd) (hroom : Roomy c e tEnd) :
    EventsSound cfg (c.close e).1 times (outs ++ (c.close e).2) [] := by
  have hmem : e ∈ c.machine.endedEvents := by
    rw [← h.handed]
    exact List.mem_append_right _ (List.mem_singleton_self e)
  have hclose : c.close e =
      ({ c with emitted := e.eventId :: c.emitted }, [c.bundle e tEnd]) := by
    unfold close
    rw [hend]
    dsimp only
    rw [if_neg h.not_marked, mul_div_cancel_right₀ _ (by norm_num), if_neg (not_lt.mpr hroom)]
  rw [hclose]
  exact {
    handed := by
      rw [List.append_nil, List.map_append]
      exact h.handed
    increasing := h.increasing
    known := h.known
    ended := h.ended
    opened := h.opened
    marked := fun id hid => by
      rcases List.mem_cons.mp hid with rfl | hid
      · exact ⟨c.bundle e tEnd, List.mem_append_right _ (List.mem_singleton_self _), rfl⟩
      · obtain ⟨b, hb, hbid⟩ := h.marked id hid
        exact ⟨b, List.mem_append_left _ hb, hbid⟩
    fresh := h.fresh
    change := h.change
    limits := h.limits
    sound := fun b hb => by
      rcases List.mem_append.mp hb with hb | hb
      · exact h.sound b hb
      · rw [List.mem_singleton.mp hb]
        exact hr.bundle_sound hend hle (h.known e (List.mem_append_left _ hmem)).sequence }

theorem EventsSound.endAndClose (h : EventsSound cfg c times outs []) (hr : RingSound cfg c f)
    (hopen : c.machine.open_ = some e) {m : CaptureStateMachine} {state : CaptureState}
    {why : CensorReason} {tEnd : ℚ} (hm : Ends c.machine m (e.ended state why tEnd))
    (hle : e.t0 ≤ tEnd) (hroom : Roomy c e tEnd) :
    EventsSound cfg { c with machine := m }.closeLast.1 times
        (outs ++ { c with machine := m }.closeLast.2) [] ∧
      { c with machine := m }.closeLast.1.machine.open_ = none := by
  rw [closeLast_eq (c := { c with machine := m }) hm.open_ hm.endedEvents]
  refine ⟨?_, ?_⟩
  · exact (h.endOpen hopen hm).handedOut (hr.of_sameFeed (sameFeed_machine c m)) rfl hle hroom
  · rw [close_machine]
    exact hm.open_

theorem EventsSound.segment (h : EventsSound cfg c times outs []) (hr : RingSound cfg c f)
    {gap auto : Bool} {tS : ℚ} (hcut : RegularCut c gap auto tS)
    (hlater : ∀ last ∈ c.lastTs, last < tS) :
    EventsSound cfg (c.segment gap auto tS).1 times (outs ++ (c.segment gap auto tS).2) [] ∧
      (gap = true → (c.segment gap auto tS).1.machine.open_ = none) := by
  unfold ResponseCapture.segment
  split
  · rename_i hnone
    rw [List.append_nil]
    exact ⟨h, fun _ => Option.isNone_iff_eq_none.mp hnone⟩
  · rename_i hsome
    obtain ⟨e, hopen⟩ := Option.ne_none_iff_exists'.mp (mt Option.isNone_iff_eq_none.mpr hsome)
    obtain ⟨last, hlast, hpast⟩ := (h.known_open hopen).past
    obtain ⟨hgapRoom, hmodeRoom⟩ := hcut e hopen
    split
    · rename_i hgap
      have hend : e.t0 ≤ c.lastTs.getD tS := by
        rw [Option.mem_def.mp hlast]
        exact hpast
      have hclosed := h.endAndClose hr hopen (ends_censor hopen .sourceGap _) hend (hgapRoom hgap)
      exact ⟨hclosed.1, fun _ => hclosed.2⟩
    · rename_i hgap
      rw [Bool.not_eq_true] at hgap
      split
      · rename_i hmode
        have hclosed := h.endAndClose hr hopen (ends_censor hopen .modeTransfer tS)
          (hpast.trans (hlater last hlast).le) (hmodeRoom hgap hmode)
        exact ⟨hclosed.1, fun _ => hclosed.2⟩
      · rw [List.append_nil]
        exact ⟨h, fun htrue => absurd (hgap.symm.trans htrue) Bool.false_ne_true⟩

theorem EventsSound.joined (h : EventsSound cfg c times outs []) {gap mapped : Bool} (row : Row)
    (hgap : gap = true → c.machine.open_ = none) (hlater : ∀ last ∈ c.lastTs, last < row.tS) :
    EventsSound cfg (c.joined gap mapped row) ((if gap then [] else times) ++ [row.tS]) outs [] where
  handed := h.handed
  increasing := h.increasing
  known e he := (h.known e he).mono fun l hl => ⟨row.tS, rfl, (hlater l hl).le⟩
  ended := h.ended
  opened e he := by
    obtain ⟨hend, hmem, hstate⟩ := h.opened e he
    refine ⟨hend, List.mem_append_left _ ?_, hstate⟩
    rw [if_neg fun hg => by
      have hnone := (hgap hg).symm.trans (Option.mem_def.mp he)
      cases hnone]
    exact hmem
  marked := h.marked
  fresh t ht hlast e he := by
    have hnew : e.t0 < row.tS := by
      obtain ⟨last, hlast, hpast⟩ := (h.known e he).past
      exact hpast.trans_lt (hlater last hlast)
    rcases List.mem_append.mp ht with ht | ht
    · split at ht
      · cases ht
      · rename_i hg
        have hkeep : (c.joined gap mapped row).lastEventT0 = c.lastEventT0 := if_neg hg
        rw [hkeep] at hlast
        exact h.fresh t ht hlast e he
    · rw [List.mem_singleton.mp ht]
      exact hnew
  change v hv := by
    obtain ⟨⟨last, hlast, hle⟩, hplace⟩ := h.change v hv
    have hlt := hle.trans_lt (hlater last hlast)
    refine ⟨⟨row.tS, rfl, hlt.le⟩, ?_⟩
    split
    · refine .inr fun t ht => ?_
      rw [List.nil_append, List.mem_singleton] at ht
      exact ht ▸ hlt
    · refine hplace.imp (List.mem_append_left _) fun hbefore t ht => ?_
      rcases List.mem_append.mp ht with ht | ht
      · exact hbefore t ht
      · exact List.mem_singleton.mp ht ▸ hlt
  limits := h.limits
  sound := h.sound

/-! ## A sample on the ring -/

theorem known_newEvent {t0 : ℚ} {lastTs : Option ℚ} (type : EventType) (pathId : Path)
    (pre post : ℚ) (hwhole : ∃ n : ℤ, t0 * 1000 = n) (hpast : ∃ last ∈ lastTs, t0 ≤ last) :
    Known lastTs (newEvent t0 type pathId pre post) where
  named := rfl
  whole := hwhole
  past := by
    rw [newEvent_t0]
    exact hpast
  sequence := List.pairwise_singleton _ _
  upto change hchange := by
    rw [List.mem_singleton.mp hchange]
    exact le_refl _

theorem Known.withState {lastTs : Option ℚ} (h : Known lastTs e) (state : CaptureState) :
    Known lastTs { e with captureState := state } :=
  ⟨h.named, h.whole, h.past, h.sequence, h.upto⟩

theorem EventsSound.detect (h : EventsSound cfg c times outs []) (hr : RingSound cfg c f)
    (htimes : f.times = times) {mapped : Bool} {nowS : ℚ} (hnone : c.machine.open_ = none)
    (hyoung : ∀ e ∈ c.detected mapped nowS, nowS - e.t0 ≤ c.cfg.maxCaptureS) :
    EventsSound cfg (c.detect mapped nowS) times outs [] := by
  unfold ResponseCapture.detect
  split
  · exact h
  · rename_i e hdetected
    obtain ⟨row, hrow, hfresh, type, pathId, pre, post, rfl⟩ := detected_spec hdetected
    have hmem : row.tS ∈ times := htimes ▸ hr.kept row hrow
    have hknown := known_newEvent type pathId pre post (hr.whole _ (htimes ▸ hmem))
      (hr.upto _ (htimes ▸ hmem))
    have hcandidate : c.machine.onCandidate (newEvent row.tS type pathId pre post)
        (newEvent row.tS type pathId pre post).t0 =
        { c.machine with
          open_ := some (newEvent row.tS type pathId pre post), state := .candidate
          reason := .none } := by
      unfold CaptureStateMachine.onCandidate
      rw [hnone]
      rfl
    have hlimit := hyoung _ hdetected
    rw [hr.cfg_eq, ← h.limits.1] at hlimit
    rw [hcandidate]
    obtain ⟨hended, ⟨state, hopen⟩, hstate, hlimits⟩ := onSample_of_le
      (m := { c.machine with
        open_ := some (newEvent row.tS type pathId pre post), state := .candidate
        reason := .none }) rfl hlimit (.inl rfl)
    refine h.opens hnone hended hopen hstate hlimits (hknown.withState state) rfl ?_ ?_ (.inl rfl) rfl
      mapped
    · exact (newEvent_t0 row.tS type pathId pre post).symm ▸ hmem
    · intro e' he'
      exact (newEvent_t0 row.tS type pathId pre post).symm ▸ h.fresh _ hmem hfresh e' he'

theorem EventsSound.remembers (h : EventsSound cfg c times outs []) (value : ℚ) {now : ℚ}
    {since : Option ℚ} (hlast : c.lastTs = some now) (hnow : now ∈ times)
    (hsince : since = c.changeSinceS ∨ since = none ∨ since = some now) :
    EventsSound cfg { c with changeSinceS := since, changeValue := value } times outs [] where
  handed := h.handed
  increasing := h.increasing
  known := h.known
  ended := h.ended
  opened := h.opened
  marked := h.marked
  fresh := h.fresh
  change v hv := by
    rcases hsince with rfl | rfl | rfl
    · exact h.change v hv
    · cases hv
    · obtain rfl := Option.some_inj.mp hv
      exact ⟨⟨now, hlast, le_refl _⟩, .inl hnow⟩
  limits := h.limits
  sound := h.sound

def superseding (e : ResponseEvent) (since : ℚ) (pathId : Path) (pre post : ℚ) : ResponseEvent :=
  { newEvent since e.type pathId pre post with
    inputSequence := e.inputSequence ++ [⟨since * 1000, post⟩], captureState := .capturing }

theorem superseding_t0 (e : ResponseEvent) (since : ℚ) (pathId : Path) (pre post : ℚ) :
    (superseding e since pathId pre post).t0 = since := mul_div_cancel_right₀ _ (by norm_num)

theorem Known.lt_of_later {lastTs : Option ℚ} (h : Known lastTs e) {since : ℚ}
    (hlater : e.t0 < since) : ∀ change ∈ e.inputSequence, change.tMs < since * 1000 := by
  intro change hchange
  refine (h.upto change hchange).trans_lt ?_
  rw [t0Ms_eq]
  exact mul_lt_mul_of_pos_right hlater (by norm_num)

theorem known_superseding {lastTs : Option ℚ} (h : Known lastTs e) {since : ℚ}
    (hlater : e.t0 < since) (hwhole : ∃ n : ℤ, since * 1000 = n)
    (hpast : ∃ last ∈ lastTs, since ≤ last) (pathId : Path) (pre post : ℚ) :
    Known lastTs (superseding e since pathId pre post) where
  named := rfl
  whole := hwhole
  past := by
    rw [superseding_t0]
    exact hpast
  sequence := by
    refine List.pairwise_append.mpr ⟨h.sequence, List.pairwise_singleton _ _, fun a ha b hb => ?_⟩
    rw [List.mem_singleton.mp hb]
    exact h.lt_of_later hlater a ha
  upto change hchange := by
    rcases List.mem_append.mp hchange with hchange | hchange
    · exact (h.lt_of_later hlater change hchange).le
    · rw [List.mem_singleton.mp hchange]
      exact le_refl _

theorem onCandidate_of_open {lastTs : Option ℚ} {m : CaptureStateMachine}
    (hopen : m.open_ = some e) (h : Known lastTs e) {since : ℚ} (hlater : e.t0 < since)
    (pathId : Path) (pre post nowS : ℚ) :
    m.onCandidate (newEvent since e.type pathId pre post) nowS =
      { m.censor .supersededByEvent nowS with
        open_ := some (superseding e since pathId pre post), state := .capturing
        reason := .none } := by
  have hnew : ∀ change ∈ e.inputSequence, change.tMs ≠ since * 1000 :=
    fun change hchange => (h.lt_of_later hlater change hchange).ne
  unfold CaptureStateMachine.onCandidate CaptureStateMachine.onNewEvent superseding
  rw [if_pos (by rw [hopen]; rfl), hopen]
  simpa [newEvent] using hnew

theorem EventsSound.supersedes (h : EventsSound cfg c times outs []) (hr : RingSound cfg c f)
    (htimes : f.times = times) (hopen : c.machine.open_ = some e) {since nowS : ℚ}
    (hsince : c.changeSinceS = some since) (hlater : e.t0 < since) (hnow : e.t0 ≤ nowS)
    (hroom : Roomy c e nowS) (pathId : Path) (pre post : ℚ) {c' : ResponseCapture}
    (hc' : c' = { c with
      lastEventT0 := some since
      changeSinceS := none
      machine := c.machine.onCandidate (newEvent since e.type pathId pre post) nowS }) :
    EventsSound cfg c'.closeSuperseded.1 times (outs ++ c'.closeSuperseded.2) [] := by
  have hends := ends_censor hopen .supersededByEvent nowS
  have hknown := h.known_open hopen
  have hmem : since ∈ times := by
    refine (h.change since hsince).2.resolve_right fun hbefore => ?_
    exact lt_asymm hlater (hbefore _ (h.opened e hopen).2.1)
  have hnew := known_superseding hknown hlater (hr.whole _ (htimes ▸ hmem))
    (hr.upto _ (htimes ▸ hmem)) pathId pre post
  have hbefore : ∀ e' ∈ (c.machine.censor .supersededByEvent nowS).events,
      e'.t0 < (superseding e since pathId pre post).t0 := by
    intro e' he'
    rw [superseding_t0]
    rw [CaptureStateMachine.events, hends.endedEvents, hends.open_, Option.toList_none,
      List.append_nil, List.mem_append, List.mem_singleton] at he'
    rcases he' with he' | rfl
    · exact (h.le_open hopen (List.mem_append_left _ he')).trans_lt hlater
    · exact hlater
  have hopened := (h.endOpen hopen hends).opens
    (m := { c.machine.censor .supersededByEvent nowS with
      open_ := some (superseding e since pathId pre post), state := .capturing, reason := .none })
    hends.open_ rfl rfl (.inr rfl) ⟨rfl, rfl⟩ hnew rfl ((superseding_t0 ..).symm ▸ hmem) hbefore
    (.inr rfl) (superseding_t0 ..) c.vpMappedAtCapture
  rw [hc', onCandidate_of_open hopen hknown hlater]
  rw [closeSuperseded_eq (e := e.ended .censored .supersededByEvent nowS) rfl hends.endedEvents]
  exact hopened.handedOut (hr.of_sameFeed ⟨rfl, rfl, rfl, rfl⟩) rfl hnow hroom

theorem EventsSound.advances (h : EventsSound cfg c times outs []) (hopen : c.machine.open_ = some e)
    {m : CaptureStateMachine} {state : CaptureState}
    (hended : m.endedEvents = c.machine.endedEvents)
    (hopen' : m.open_ = some { e with captureState := state })
    (hstate : m.state = .candidate ∨ m.state = .capturing)
    (hlimits : m.maxCaptureS = c.machine.maxCaptureS ∧ m.minCaptureS = c.machine.minCaptureS) :
    EventsSound cfg { c with machine := m } times outs [] where
  handed := h.handed.trans hended.symm
  increasing := by
    have hinc := h.increasing
    rw [CaptureStateMachine.events, hopen] at hinc
    rw [CaptureStateMachine.events, hended, hopen']
    rw [List.map_append] at hinc ⊢
    exact hinc
  known e' he' := by
    rw [CaptureStateMachine.events, hended, hopen', Option.toList_some, List.mem_append,
      List.mem_singleton] at he'
    rcases he' with he' | rfl
    · exact h.known e' (List.mem_append_left _ he')
    · exact (h.known_open hopen).withState state
  ended e' he' := by
    rw [hended] at he'
    exact h.ended e' he'
  opened e' he' := by
    rw [hopen'] at he'
    obtain rfl := Option.some_inj.mp he'
    exact ⟨(h.opened e hopen).1, (h.opened e hopen).2.1, hstate⟩
  marked := h.marked
  fresh t ht hlast e' he' := by
    have hfresh := h.fresh t ht hlast
    rw [CaptureStateMachine.events, hended, hopen', Option.toList_some, List.mem_append,
      List.mem_singleton] at he'
    rcases he' with he' | rfl
    · exact hfresh e' (List.mem_append_left _ he')
    · exact hfresh e (by rw [CaptureStateMachine.events, hopen]; simp)
  change := h.change
  limits := ⟨hlimits.1.trans h.limits.1, hlimits.2.trans h.limits.2⟩
  sound := h.sound

theorem EventsSound.finish (h : EventsSound cfg c times outs []) (hr : RingSound cfg c f)
    (hopen : c.machine.open_ = some e) {nowS : ℚ} (hle : e.t0 ≤ nowS)
    (hroom : c.cfg.maxCaptureS < nowS - e.t0 ∨ c.settled nowS = true → Roomy c e nowS) :
    EventsSound cfg (c.finish nowS).1 times (outs ++ (c.finish nowS).2) [] := by
  have hmax : c.machine.maxCaptureS = c.cfg.maxCaptureS := by rw [h.limits.1, hr.cfg_eq]
  unfold ResponseCapture.finish
  dsimp only
  rcases lt_or_ge c.machine.maxCaptureS (nowS - e.t0) with hold | hyoung
  · rw [onSample_of_lt hopen hold, if_pos (censor_state hopen _ _)]
    exact (h.endAndClose hr hopen (ends_censor hopen .captureMax nowS) hle
      (hroom (.inl (hmax ▸ hold)))).1
  · obtain ⟨hended, ⟨state, hopen'⟩, hstate, hlimits⟩ :=
      onSample_of_le hopen hyoung (h.opened e hopen).2.2
    have hopen_state : (c.machine.onSample nowS).state ≠ .censored := by
      rcases hstate with hstate | hstate <;> rw [hstate] <;> nofun
    rw [if_neg hopen_state, settled_congr hopen hopen' rfl]
    split
    · rename_i hsettled
      have hmin := minCaptureS_le_of_settled hopen hsettled
      rw [hr.cfg_eq, ← h.limits.2, ← hlimits.2] at hmin
      obtain ⟨hqualified, hends⟩ := ends_complete hopen' hmin
      rw [if_pos hqualified]
      exact (h.endAndClose hr hopen
        ⟨hends.endedEvents.trans (by rw [hended]), hends.open_,
          hends.limits.1.trans hlimits.1, hends.limits.2.trans hlimits.2⟩
        hle (hroom (.inr hsettled))).1
    · rw [List.append_nil]
      exact h.advances hopen hended hopen' hstate hlimits

theorem EventsSound.le_now (h : EventsSound cfg c times outs pending)
    (hopen : c.machine.open_ = some e) {now : ℚ} (hnow : c.lastTs = some now) : e.t0 ≤ now := by
  obtain ⟨last, hlast, hpast⟩ := (h.known_open hopen).past
  rw [hnow] at hlast
  exact hpast.trans (Option.some_inj.mp hlast).ge

theorem EventsSound.observe (h : EventsSound cfg c times outs []) (hr : RingSound cfg c f)
    (htimes : f.times = times) {mapped : Bool} {row : Row} (hnow : c.lastTs = some row.tS)
    (hmem : row.tS ∈ times) (hopen : c.machine.open_ = some e) (hturn : RegularTurn c mapped row) :
    EventsSound cfg (c.observe mapped row).1 times (outs ++ (c.observe mapped row).2) [] := by
  obtain ⟨-, hsupersede, hending⟩ := hturn
  have hchangedRing := hr.of_sameFeed (sameFeed_changed c mapped row)
  unfold ResponseCapture.observe
  dsimp only
  rcases changed_cases c mapped row with
    ⟨hflag, since, value, hsince, hstate⟩ |
    ⟨hflag, e', since, hopen', hsince, pathId, pre, post, hstate⟩
  · have hremembered := h.remembers value hnow hmem hsince
    rw [hstate] at hending hchangedRing
    rw [hflag, if_neg Bool.false_ne_true, List.nil_append, hstate]
    exact hremembered.finish hchangedRing hopen (h.le_now hopen hnow) (hending e hopen)
  · obtain rfl := Option.some_inj.mp (hopen.symm.trans hopen')
    obtain ⟨hlater, hroom⟩ := hsupersede hflag e hopen since hsince
    have hclosed := h.supersedes hr htimes hopen hsince hlater (h.le_now hopen hnow) hroom pathId pre
      post hstate
    have hnext : (c.changed mapped row).1.machine.open_ =
        some (superseding e since pathId pre post) := by
      rw [hstate, onCandidate_of_open hopen (h.known_open hopen) hlater]
    have hlast : (c.changed mapped row).1.lastTs = some row.tS := by
      rw [hstate]
      exact hnow
    have hroomNext : ∀ e, Roomy (c.changed mapped row).1 e row.tS = Roomy c e row.tS := fun e => by
      rw [hstate]
      rfl
    rw [hflag, if_pos rfl, ← List.append_assoc]
    obtain ⟨ids, hids⟩ := closeSuperseded_state (c.changed mapped row).1
    have hring := hchangedRing.of_sameFeed (sameFeed_closeSuperseded _)
    rw [hids] at hclosed hring ⊢
    refine hclosed.finish hring hnext (hclosed.le_now hnext hlast) fun hend => ?_
    have hcfg := congrArg ResponseJobConfig.maxCaptureS (sameFeed_changed c mapped row).cfg
    have hroomy := hending _ hnext (hend.imp_left fun hlt => hcfg.symm.trans_lt hlt)
    exact (hroomNext _).symm ▸ hroomy

theorem EventsSound.examine (h : EventsSound cfg c times outs []) (hr : RingSound cfg c f)
    (htimes : f.times = times) {mapped : Bool} {row : Row} (hnow : c.lastTs = some row.tS)
    (hmem : row.tS ∈ times)
    (hturn : c.healthIneligible = false → RegularTurn c mapped row) :
    EventsSound cfg (c.examine mapped row).1 times (outs ++ (c.examine mapped row).2) [] := by
  unfold ResponseCapture.examine
  split
  · rw [List.append_nil]
    exact h
  · rename_i hhealth
    have hturn := hturn (Bool.not_eq_true _ ▸ hhealth)
    split
    · rename_i hnone
      rw [Option.isNone_iff_eq_none] at hnone
      rw [List.append_nil]
      dsimp only
      split
      · rename_i hgood
        exact h.detect hr htimes hnone (hturn.young hnone hgood)
      · exact h
    · rename_i hsome
      obtain ⟨e, hopen⟩ := Option.ne_none_iff_exists'.mp (mt Option.isNone_iff_eq_none.mpr hsome)
      exact h.observe hr htimes hnow hmem hopen hturn

theorem EventsSound.onHealth (h : EventsSound cfg c times outs []) (hr : RingSound cfg c f)
    {ineligible : Bool} {atS : ℚ} (hregular : Regular c (.health ineligible atS)) :
    EventsSound cfg (c.onHealth ineligible atS).1 times (outs ++ (c.onHealth ineligible atS).2) [] := by
  have hflag : EventsSound cfg { c with healthIneligible := ineligible } times outs [] :=
    ⟨h.handed, h.increasing, h.known, h.ended, h.opened, h.marked, h.fresh, h.change, h.limits,
      h.sound⟩
  unfold ResponseCapture.onHealth
  dsimp only
  split
  · rename_i hends
    rw [Bool.and_eq_true] at hends
    obtain ⟨e, hopen⟩ := Option.isSome_iff_exists.mp hends.2
    obtain ⟨hle, hroom⟩ := hregular hends.1 e hopen
    exact (hflag.endAndClose (hr.of_sameFeed ⟨rfl, rfl, rfl, rfl⟩) hopen
      (ends_censor hopen .healthIneligible atS) hle hroom).1
  · rw [List.append_nil]
    exact hflag

theorem EventsSound.admitted (h : EventsSound cfg c f.times outs []) (hr : RingSound cfg c f)
    (htaken : c.taken s vpUsable = true)
    (hcut : RegularCut c (c.gap s vpUsable) s.isAutoMode (row s vpUsable).tS) :
    EventsSound cfg (c.admitted s vpUsable) (f.feed cfg.maxGapS (.sample s vpUsable)).times
      (outs ++ (c.segmented s vpUsable).2) [] := by
  have hlater := lt_of_taken htaken
  have hfeed : SameFeed c (c.segmented s vpUsable).1 := sameFeed_segment c _ _ _
  obtain ⟨hsegmented, hclosed⟩ := h.segment hr hcut hlater
  rw [hr.feed_of_taken htaken]
  exact hsegmented.joined (row s vpUsable) hclosed fun last hlast => hlater last (hfeed.lastTs ▸ hlast)

theorem EventsSound.step (h : EventsSound cfg c f.times outs []) (hr : RingSound cfg c f)
    {i : CaptureInput} (hregular : Regular c i) :
    EventsSound cfg (c.step i).1 (f.feed cfg.maxGapS i).times (outs ++ (c.step i).2) [] := by
  cases i with
  | health ineligible atS => exact h.onHealth hr hregular
  | sample s vpUsable =>
    rw [ResponseCapture.step]
    cases htaken : c.taken s vpUsable with
    | false =>
      rw [onSample_of_not_taken htaken, hr.feed_of_not_taken htaken, List.append_nil]
      unfold dropped
      split <;> exact ⟨h.handed, h.increasing, h.known, h.ended, h.opened, h.marked, h.fresh,
        h.change, h.limits, h.sound⟩
    | true =>
      obtain ⟨hcut, hturn⟩ := hregular htaken
      have hring := hr.admitted htaken
      have hadmitted := h.admitted hr htaken hcut
      rw [onSample_of_taken htaken, ← List.append_assoc]
      rw [hr.feed_of_taken htaken] at hring hadmitted ⊢
      exact hadmitted.examine hring rfl rfl (List.mem_append_right _ (List.mem_singleton_self _))
        hturn

theorem eventsSound_after {cfg : ResponseJobConfig} {inputs : List CaptureInput}
    (h : Machine.Always ResponseCapture.step Regular (create cfg) inputs) :
    EventsSound cfg (after cfg inputs) (SourceSupport.after cfg.maxGapS inputs).times
      (handedOut cfg inputs) [] := by
  induction inputs using List.reverseRecOn with
  | nil => exact eventsSound_create cfg
  | append_singleton pre i ih =>
    rw [Machine.always_concat] at h
    rw [after_concat, handedOut_concat, SourceSupport.after_concat]
    exact (ih h.1).step (ringSound_after cfg pre) h.2

/-! ## Where the events start -/

def starts (m : CaptureStateMachine) : List ℚ := m.events.map ResponseEvent.t0

theorem starts_endOpen (m : CaptureStateMachine) (captureState : CaptureState) (why : CensorReason)
    (state : State) (atS : ℚ) : starts (m.endOpen captureState why state atS) = starts m := by
  unfold CaptureStateMachine.endOpen
  split
  · rfl
  · rename_i e hopen
    unfold starts CaptureStateMachine.events
    rw [hopen, Option.toList_none, List.append_nil, List.map_append, List.map_append]
    rfl

theorem starts_censor (m : CaptureStateMachine) (why : CensorReason) (atS : ℚ) :
    starts (m.censor why atS) = starts m := by
  unfold CaptureStateMachine.censor
  split
  · rfl
  · exact starts_endOpen m _ _ _ _

theorem starts_advance (m : CaptureStateMachine) (captureState : CaptureState) (state : State) :
    starts (m.advance captureState state) = starts m := by
  unfold starts CaptureStateMachine.events CaptureStateMachine.advance
  rw [List.map_append, List.map_append]
  cases m.open_ <;> rfl

theorem starts_onSample (m : CaptureStateMachine) (atS : ℚ) :
    starts (m.onSample atS) = starts m := by
  unfold CaptureStateMachine.onSample
  split
  · rfl
  · split
    · exact starts_censor m _ _
    · split
      · exact starts_advance m _ _
      · rfl

theorem starts_qualified (m : CaptureStateMachine) (atS : ℚ) :
    starts (m.qualified atS) = starts m := by
  unfold CaptureStateMachine.qualified
  split
  · rfl
  · split
    · exact starts_endOpen m _ _ _ _
    · exact starts_advance m _ _

theorem starts_segment (c : ResponseCapture) (gap auto : Bool) (tS : ℚ) :
    starts (c.segment gap auto tS).1.machine = starts c.machine := by
  unfold ResponseCapture.segment
  split
  · rfl
  · split
    · rw [closeLast_machine]
      exact starts_censor _ _ _
    · split
      · rw [closeLast_machine]
        exact starts_censor _ _ _
      · rfl

theorem starts_finish (c : ResponseCapture) (nowS : ℚ) :
    starts (c.finish nowS).1.machine = starts c.machine := by
  unfold ResponseCapture.finish
  dsimp only
  split
  · rw [closeLast_machine]
    exact starts_onSample _ _
  · split
    · split
      · rw [closeLast_machine]
        exact (starts_endOpen _ _ _ _ _).trans
          ((starts_qualified _ _).trans (starts_onSample _ _))
      · rw [closeLast_machine]
        exact (starts_qualified _ _).trans (starts_onSample _ _)
    · exact starts_onSample _ _

theorem starts_onHealth (c : ResponseCapture) (ineligible : Bool) (atS : ℚ) :
    starts (c.onHealth ineligible atS).1.machine = starts c.machine := by
  unfold ResponseCapture.onHealth
  dsimp only
  split
  · rw [closeLast_machine]
    exact starts_censor _ _ _
  · rfl

theorem starts_onCandidate (m : CaptureStateMachine) (e : ResponseEvent) (atS : ℚ) :
    starts (m.onCandidate e atS) = starts m ++ [e.t0] := by
  unfold CaptureStateMachine.onCandidate
  split
  · rename_i hsome
    obtain ⟨open_, hopen⟩ := Option.isSome_iff_exists.mp hsome
    have hcensor := starts_censor m .supersededByEvent atS
    rw [← hcensor]
    unfold CaptureStateMachine.onNewEvent starts CaptureStateMachine.events
    rw [(ends_censor hopen .supersededByEvent atS).open_, Option.toList_none, List.append_nil,
      List.map_append]
    rfl
  · rename_i hnone
    have hnone : m.open_ = none := Option.not_isSome_iff_eq_none.mp hnone
    unfold starts CaptureStateMachine.events
    rw [hnone, Option.toList_none, List.append_nil, List.map_append]
    rfl

theorem EventsSound.starts_examine (h : EventsSound cfg c times outs []) (hr : RingSound cfg c f)
    (htimes : f.times = times) {mapped : Bool} {row : Row}
    (hturn : c.healthIneligible = false → RegularTurn c mapped row) :
    ∃ new, starts (c.examine mapped row).1.machine = starts c.machine ++ new ∧
      ∀ t ∈ new, t ∈ times := by
  unfold ResponseCapture.examine
  split
  · exact ⟨[], (List.append_nil _).symm, nofun⟩
  · rename_i hhealth
    have hturn := hturn (Bool.not_eq_true _ ▸ hhealth)
    split
    · dsimp only
      split
      · unfold ResponseCapture.detect
        split
        · exact ⟨[], (List.append_nil _).symm, nofun⟩
        · rename_i e hdetected
          refine ⟨[e.t0], (starts_onSample _ _).trans (starts_onCandidate _ _ _), fun t ht => ?_⟩
          obtain ⟨row, hrow, -, type, pathId, pre, post, rfl⟩ := detected_spec hdetected
          rw [List.mem_singleton.mp ht, newEvent_t0]
          exact htimes ▸ hr.kept row hrow
      · exact ⟨[], (List.append_nil _).symm, nofun⟩
    · unfold ResponseCapture.observe
      dsimp only
      rw [starts_finish]
      rcases changed_cases c mapped row with
        ⟨hflag, since, value, -, hstate⟩ | ⟨hflag, e, since, hopen, hsince, pathId, pre, post, hstate⟩
      · rw [hflag, if_neg Bool.false_ne_true, hstate]
        exact ⟨[], (List.append_nil _).symm, nofun⟩
      · rw [hflag, if_pos rfl]
        obtain ⟨ids, hids⟩ := closeSuperseded_state (c.changed mapped row).1
        rw [hids, hstate]
        refine ⟨[since], ?_, fun t ht => ?_⟩
        · rw [starts_onCandidate, newEvent_t0]
        · rw [List.mem_singleton.mp ht]
          refine (h.change since hsince).2.resolve_right fun hbefore => ?_
          exact lt_asymm (hturn.later hflag e hopen since hsince).1
            (hbefore _ (h.opened e hopen).2.1)

theorem EventsSound.starts_step (h : EventsSound cfg c f.times outs []) (hr : RingSound cfg c f)
    {i : CaptureInput} (hregular : Regular c i) :
    ∃ new, starts (c.step i).1.machine = starts c.machine ++ new ∧
      ∀ t ∈ new, t ∈ (f.feed cfg.maxGapS i).times := by
  cases i with
  | health ineligible atS =>
    refine ⟨[], ?_, nofun⟩
    rw [List.append_nil]
    exact starts_onHealth c ineligible atS
  | sample s vpUsable =>
    rw [ResponseCapture.step]
    cases htaken : c.taken s vpUsable with
    | false =>
      refine ⟨[], ?_, nofun⟩
      rw [onSample_of_not_taken htaken, List.append_nil]
      unfold dropped
      split <;> rfl
    | true =>
      obtain ⟨hcut, hturn⟩ := hregular htaken
      have hstarts : starts (c.admitted s vpUsable).machine = starts c.machine :=
        starts_segment c _ _ _
      rw [onSample_of_taken htaken, ← hstarts]
      exact (h.admitted hr htaken hcut).starts_examine (hr.admitted htaken) rfl hturn

/-- **In a run whose calls all meet the condition, captures lose nothing and never bridge.** -/
theorem capturesSound_of_regular (cfg : ResponseJobConfig) (inputs : List CaptureInput)
    (h : Machine.Always ResponseCapture.step Regular (create cfg) inputs) :
    CapturesSound cfg inputs := by
  have hsound := eventsSound_after h
  have hended : (after cfg inputs).machine.events.filter (fun e => e.tEndMs.isSome) =
      (after cfg inputs).machine.endedEvents := by
    rw [CaptureStateMachine.events, List.filter_append, List.filter_eq_self.mpr hsound.ended]
    rw [List.filter_eq_nil_iff.mpr fun e he => ?_, List.append_nil]
    rw [(hsound.opened e (Option.mem_toList.mp he)).1]
    exact Bool.false_ne_true
  refine ⟨?_, hsound.increasing, ?_, ?_, hsound.sound⟩
  · rw [CaptureStateMachine.events, List.filter_append, List.filter_eq_nil_iff.mpr fun e he => ?_,
      List.nil_append]
    · refine (List.length_filter_le _ _).trans ?_
      cases (after cfg inputs).machine.open_ <;> simp
    · rw [Option.isNone_iff_eq_none]
      intro hnone
      have hsome := hsound.ended e he
      rw [hnone] at hsome
      cases hsome
  · rintro pre i ⟨post, rfl⟩ e he
    rw [Machine.always_append, Machine.always_concat] at h
    obtain ⟨⟨hpre, hi⟩, -⟩ := h
    obtain ⟨new, hnew, hmem⟩ := (eventsSound_after hpre).starts_step (ringSound_after cfg pre) hi
    rw [SourceSupport.after_concat]
    refine hmem _ ?_
    have hstart : e.t0 ∈ (starts (after cfg (pre ++ [i])).machine).drop
        (starts (after cfg pre).machine).length := by
      unfold starts
      rw [List.length_map, ← List.map_drop]
      exact List.mem_map_of_mem he
    rw [after_concat] at hstart
    rw [hnew, List.drop_left] at hstart
    exact hstart
  · rw [hended, ← hsound.handed, List.append_nil]

def everyHalfMinute : ℤ → List ℚ → List CaptureInput
  | _, [] => []
  | startS, sp :: rest =>
      .sample { eventTsMs := startS * 1000, pv := 50, sp := sp, op := 40 } false ::
        everyHalfMinute (startS + 30) rest

theorem capturesSound_of_regular_sample :
    CapturesSound {} (everyHalfMinute 0 [50, 50, 55, 55, 60, 60, 60, 60, 60, 60, 60]) :=
  capturesSound_of_regular {} _ (by decide +kernel)

/-- A change that a source gap cuts off is still remembered when the next event is open: it is
superseded at an instant before its own start, and before the gap. -/
theorem superseded_before_start :
    ¬ CapturesSound {} (everyHalfMinute 0 [50, 50, 55, 55, 60] ++
      everyHalfMinute 300 [60, 60, 55, 55, 60]) := by
  intro h
  exact absurd h.increasing (by decide +kernel)

end ResponseCapture

end OpenBridge.Response
