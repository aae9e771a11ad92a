import OpenBridge.Conditions.ConditionDetector
import OpenBridge.Foundation.Machine

/-!
# Conditions: episodes

The records of one kind as a sequence of episodes.
-/

namespace OpenBridge.Conditions

open OpenBridge.Foundation

/-- One episode; `closing` is absent while it is open. -/
structure Episode where
  opening : ConditionEvent
  updates : List ConditionEvent
  closing : Option ConditionEvent

namespace Episode

def records (e : Episode) : List ConditionEvent := e.opening :: (e.updates ++ e.closing.toList)

/-- `OPEN UPDATE* CLOSED` of one start, with ordered times that do not go back. -/
structure WellFormed (e : Episode) : Prop where
  opens : e.opening.state = "OPEN"
  persists : ∀ u ∈ e.updates, u.state = "UPDATE"
  closes : ∀ c ∈ e.closing, c.state = "CLOSED" ∧ c.lastMs < c.endMs
  start : ∀ r ∈ e.records, r.startMs = e.opening.startMs
  last : ∀ r ∈ e.records, r.startMs ≤ r.lastMs
  ordered : e.records.Pairwise fun r r' => r.lastMs ≤ r'.lastMs

def Before (a b : Episode) : Prop :=
  a.opening.startMs < b.opening.startMs ∧ ∃ c ∈ a.closing, c.endMs ≤ b.opening.startMs

theorem WellFormed.before {a b : Episode} (h : a.WellFormed) {c : ConditionEvent}
    (hc : c ∈ a.closing) (hend : c.endMs ≤ b.opening.startMs) : a.Before b := by
  have hin : c ∈ a.records :=
    List.mem_cons_of_mem _ (List.mem_append_right _ (Option.mem_toList.mpr hc))
  have hstart := h.start c hin
  have hlast := h.last c hin
  have hstop := (h.closes c hc).2
  exact ⟨by omega, c, hc, hend⟩

end Episode

/-- The records are those of a sequence of episodes, each but the last one closed. -/
def Episodic (log : List ConditionEvent) : Prop :=
  ∃ es : List Episode, log = es.flatMap Episode.records ∧ (∀ e ∈ es, e.WellFormed) ∧
    es.Pairwise Episode.Before

/-! ## One kind -/

/-- The records of a kind up to `now`: the episodes that have ended did so before the run that goes
on, if one does, and an open episode belongs to that run. -/
structure Track (opened : Option ConditionEvent) (log : List ConditionEvent) (run : Option ℤ)
    (now : ℤ) : Prop where
  begun : ∀ r ∈ run, r ≤ now
  episodes : ∃ done : List Episode, done.Pairwise Episode.Before ∧
    (∀ e ∈ done, e.WellFormed ∧ ∃ c ∈ e.closing, c.endMs ≤ run.getD now) ∧
    match opened with
    | none => log = done.flatMap Episode.records
    | some o => run = some o.startMs ∧ o.startMs ≤ o.lastMs ∧ o.lastMs ≤ now ∧
        ∃ current : Episode, current.WellFormed ∧ current.closing = none ∧
          current.opening.startMs = o.startMs ∧ (∀ r ∈ current.records, r.lastMs ≤ o.lastMs) ∧
          log = done.flatMap Episode.records ++ current.records

namespace Track

variable {opened : Option ConditionEvent} {log : List ConditionEvent} {run : Option ℤ}
  {now later : ℤ} {o : ConditionEvent}

theorem ordered_concat {records : List ConditionEvent} {e : ConditionEvent}
    (h : records.Pairwise fun r r' => r.lastMs ≤ r'.lastMs)
    (hle : ∀ r ∈ records, r.lastMs ≤ e.lastMs) :
    (records ++ [e]).Pairwise fun r r' => r.lastMs ≤ r'.lastMs :=
  List.pairwise_append.mpr ⟨h, List.pairwise_singleton _ _, fun r hr _ hr' =>
    List.mem_singleton.mp hr' ▸ hle r hr⟩

theorem start (now : ℤ) : Track none [] none now :=
  ⟨by simp, [], List.Pairwise.nil, by simp, rfl⟩

theorem wait (h : Track opened log run now) (hle : now ≤ later) : Track opened log run later := by
  obtain ⟨hbegun, done, hpair, hdone, hopened⟩ := h
  refine ⟨fun r hr => le_trans (hbegun r hr) hle, done, hpair, fun e he => ?_, ?_⟩
  · obtain ⟨hwf, c, hc, hend⟩ := hdone e he
    refine ⟨hwf, c, hc, le_trans hend ?_⟩
    cases run with
    | none => exact hle
    | some r => exact le_refl r
  · cases opened with
    | none => exact hopened
    | some o =>
      obtain ⟨hrun, hlast, hnow, hcurrent⟩ := hopened
      exact ⟨hrun, hlast, le_trans hnow hle, hcurrent⟩

theorem run_of_some (h : Track (some o) log run now) : run = some o.startMs := by
  obtain ⟨-, done, -, -, hrun, -⟩ := h
  exact hrun

theorem beginAt (h : Track opened log none now) (hle : now ≤ later) :
    Track opened log (some later) later := by
  cases opened with
  | some o => exact absurd h.run_of_some (by simp)
  | none =>
    obtain ⟨-, done, hpair, hdone, hlog⟩ := h
    refine ⟨fun r hr => (Option.some.inj hr).ge, done, hpair, fun e he => ?_, hlog⟩
    obtain ⟨hwf, c, hc, hend⟩ := hdone e he
    exact ⟨hwf, c, hc, le_trans hend hle⟩

theorem drop (h : Track none log run now) : Track none log none now := by
  obtain ⟨hbegun, done, hpair, hdone, hlog⟩ := h
  refine ⟨by simp, done, hpair, fun e he => ?_, hlog⟩
  obtain ⟨hwf, c, hc, hend⟩ := hdone e he
  refine ⟨hwf, c, hc, le_trans hend ?_⟩
  cases run with
  | none => exact le_refl now
  | some r => exact hbegun r rfl

theorem openAt {e : ConditionEvent} (h : Track none log (some o.startMs) now)
    (hstate : e.state = "OPEN") (hstart : e.startMs = o.startMs) (hlast : e.lastMs = o.lastMs)
    (hle : o.startMs ≤ o.lastMs) (hnow : o.lastMs ≤ later) :
    Track (some o) (log ++ [e]) (some o.startMs) later := by
  obtain ⟨-, done, hpair, hdone, hlog⟩ := h
  refine ⟨fun r hr => ?_, done, hpair, hdone, rfl, hle, hnow, ⟨e, [], none⟩, ?_, rfl, hstart, ?_, ?_⟩
  · rw [← Option.some.inj hr]
    exact le_trans hle hnow
  · exact ⟨hstate, by simp, by simp, by simp [Episode.records],
      by simp [Episode.records, hstart, hlast, hle], by simp [Episode.records]⟩
  · simp [Episode.records, hlast]
  · rw [hlog]
    rfl

theorem extend {o' : ConditionEvent} {out : List ConditionEvent} (h : Track (some o) log run now)
    (hstart : o'.startMs = o.startMs) (hle : o.lastMs ≤ o'.lastMs) (hnow : o'.lastMs ≤ later)
    (hlater : now ≤ later)
    (hout : out = [] ∨ ∃ e, out = [e] ∧ e.state = "UPDATE" ∧ e.startMs = o.startMs ∧
      e.lastMs = o'.lastMs) : Track (some o') (log ++ out) run later := by
  obtain ⟨hbegun, done, hpair, hdone, hrun, hlast, -, current, hwf, hopen, hcur, hup, hlog⟩ := h
  subst hrun
  refine ⟨fun r hr => le_trans (hbegun r hr) hlater, done, hpair, hdone,
    congrArg some hstart.symm, by omega, hnow, ?_⟩
  rcases hout with rfl | ⟨e, rfl, hstate, hestart, helast⟩
  · exact ⟨current, hwf, hopen, hcur.trans hstart.symm, fun r hr => (hup r hr).trans hle,
      by rw [List.append_nil, hlog]⟩
  · have hrecords : (⟨current.opening, current.updates ++ [e], none⟩ : Episode).records =
        current.records ++ [e] := by
      simp [Episode.records, hopen]
    refine ⟨⟨current.opening, current.updates ++ [e], none⟩, ?_, rfl, hcur.trans hstart.symm, ?_, ?_⟩
    · refine ⟨hwf.opens, ?_, by simp, ?_, ?_, ?_⟩
      · exact List.forall_mem_append.mpr ⟨hwf.persists, List.forall_mem_singleton.mpr hstate⟩
      · rw [hrecords]
        exact List.forall_mem_append.mpr
          ⟨hwf.start, List.forall_mem_singleton.mpr (hestart.trans hcur.symm)⟩
      · rw [hrecords]
        exact List.forall_mem_append.mpr ⟨hwf.last, List.forall_mem_singleton.mpr (by omega)⟩
      · rw [hrecords]
        exact ordered_concat hwf.ordered fun r hr => (hup r hr).trans (hle.trans helast.ge)
    · rw [hrecords]
      exact List.forall_mem_append.mpr ⟨fun r hr => (hup r hr).trans hle,
        List.forall_mem_singleton.mpr helast.le⟩
    · rw [hrecords, hlog, List.append_assoc]

theorem closeAt {c : ConditionEvent} (h : Track (some o) log run now) (hstate : c.state = "CLOSED")
    (hstart : c.startMs = o.startMs) (hlast : c.lastMs = o.lastMs) (hend : now < c.endMs)
    (hlater : c.endMs ≤ later) : Track none (log ++ [c]) none later := by
  obtain ⟨hbegun, done, hpair, hdone, hrun, hle, hnow, current, hwf, hopen, hcur, hup, hlog⟩ := h
  subst hrun
  have hrecords : (⟨current.opening, current.updates, some c⟩ : Episode).records =
      current.records ++ [c] := by
    simp [Episode.records, hopen]
  have hclosed : (⟨current.opening, current.updates, some c⟩ : Episode).WellFormed := by
    refine ⟨hwf.opens, hwf.persists, fun c' hc' => ?_, ?_, ?_, ?_⟩
    · rw [← Option.some.inj hc']
      exact ⟨hstate, by omega⟩
    · rw [hrecords]
      exact List.forall_mem_append.mpr
        ⟨hwf.start, List.forall_mem_singleton.mpr (hstart.trans hcur.symm)⟩
    · rw [hrecords]
      exact List.forall_mem_append.mpr ⟨hwf.last, List.forall_mem_singleton.mpr (by omega)⟩
    · rw [hrecords]
      exact ordered_concat hwf.ordered fun r hr => (hup r hr).trans hlast.ge
  refine ⟨by simp, done ++ [⟨current.opening, current.updates, some c⟩],
    List.pairwise_append.mpr ⟨hpair, List.pairwise_singleton _ _, fun a ha b hb => ?_⟩,
    fun e he => ?_, ?_⟩
  · -- what has ended did so before the run of the episode
    obtain ⟨hawf, c', hc', hend'⟩ := hdone a ha
    rw [List.mem_singleton.mp hb]
    rw [Option.getD_some, ← hcur] at hend'
    exact hawf.before hc' hend'
  · rcases List.mem_append.mp he with he | he
    · obtain ⟨hwf', c', hc', hend'⟩ := hdone e he
      have hrun := hbegun _ rfl
      rw [Option.getD_some] at hend'
      exact ⟨hwf', c', hc', by rw [Option.getD_none]; omega⟩
    · rw [List.mem_singleton.mp he]
      exact ⟨hclosed, c, rfl, hlater⟩
  · rw [List.flatMap_append, hlog, List.flatMap_cons, List.flatMap_nil, List.append_nil, hrecords,
      List.append_assoc]

theorem episodic (h : Track opened log run now) : Episodic log := by
  obtain ⟨-, done, hpair, hdone, hopened⟩ := h
  cases opened with
  | none => exact ⟨done, hopened, fun e he => (hdone e he).1, hpair⟩
  | some o =>
    obtain ⟨hrun, -, -, current, hwf, -, hcur, -, hlog⟩ := hopened
    subst hrun
    refine ⟨done ++ [current], by rw [hlog, List.flatMap_append]; simp, fun e he => ?_,
      List.pairwise_append.mpr ⟨hpair, List.pairwise_singleton _ _, fun a ha b hb => ?_⟩⟩
    · rcases List.mem_append.mp he with he | he
      · exact (hdone e he).1
      · exact List.mem_singleton.mp he ▸ hwf
    · obtain ⟨hawf, c', hc', hend'⟩ := hdone a ha
      rw [List.mem_singleton.mp hb]
      rw [Option.getD_some, ← hcur] at hend'
      exact hawf.before hc' hend'

theorem last_of_none (h : Track none log run now) : ∀ e ∈ log.getLast?, e.state = "CLOSED" := by
  obtain ⟨-, done, -, hdone, hlog⟩ := h
  intro e he
  rw [hlog] at he
  rcases List.eq_nil_or_concat' done with rfl | ⟨before, last, rfl⟩
  · simp at he
  · obtain ⟨hwf, c, hc, -⟩ := hdone last (List.mem_append_right _ List.mem_cons_self)
    have hrecords : last.records = (last.opening :: last.updates) ++ [c] := by
      rw [Episode.records, Option.mem_def.mp hc]
      rfl
    rw [List.flatMap_append, List.flatMap_cons, List.flatMap_nil, List.append_nil, hrecords,
      ← List.append_assoc, List.getLast?_concat] at he
    rw [← Option.some.inj he]
    exact (hwf.closes c hc).1

theorem last_of_some (h : Track (some o) log run now) :
    ∃ e, log.getLast? = some e ∧ e.state ≠ "CLOSED" ∧ e.startMs = o.startMs := by
  obtain ⟨-, done, -, -, -, -, -, current, hwf, hopen, hcur, -, hlog⟩ := h
  have hrecords : current.records = current.opening :: current.updates := by
    rw [Episode.records, hopen]
    simp
  have hne : current.records ≠ [] := by
    rw [hrecords]
    exact List.cons_ne_nil _ _
  refine ⟨current.records.getLast hne, ?_, ?_, (hwf.start _ (List.getLast_mem hne)).trans hcur⟩
  · rw [hlog, List.getLast?_append, List.getLast?_eq_getLast_of_ne_nil hne]
    rfl
  · have hmem := List.getLast_mem hne
    generalize current.records.getLast hne = e at hmem
    rw [hrecords] at hmem
    rcases List.mem_cons.mp hmem with rfl | hmem
    · rw [hwf.opens]
      decide
    · rw [hwf.persists e hmem]
      decide

end Track

/-! ## The detector's two operations -/

def ofKind (kind : String) (log : List ConditionEvent) : List ConditionEvent :=
  log.filter fun r => r.kind = kind

def gateOf (kind : String) : String := if kind = "FREEZE" then "G11" else "G10"

theorem ofKind_append (kind : String) (log out : List ConditionEvent) :
    ofKind kind (log ++ out) = ofKind kind log ++ ofKind kind out :=
  List.filter_append _ _

theorem ofKind_self {kind : String} {out : List ConditionEvent} (h : ∀ r ∈ out, r.kind = kind) :
    ofKind kind out = out :=
  List.filter_eq_self.mpr fun r hr => decide_eq_true (h r hr)

theorem ofKind_other {kind kind' : String} {out : List ConditionEvent}
    (h : ∀ r ∈ out, r.kind = kind) (hne : kind' ≠ kind) : ofKind kind' out = [] :=
  List.filter_eq_nil_iff.mpr fun r hr hr' => hne ((of_decide_eq_true hr').symm.trans (h r hr))

namespace ConditionDetector

variable {d : ConditionDetector} {log : List ConditionEvent} {run : String → Option ℤ}
  {now : String → ℤ} {kind : String}

theorem advance_cases (d : ConditionDetector) (gate kind : String) (startMs ts : ℤ)
    (evidence : List (String × EvidenceValue)) : ∃ o updates out,
    d.advance gate kind startMs ts evidence =
      ({ d with opened := d.opened.set kind o, lastUpdateMs := updates }, out) ∧ o.lastMs = ts ∧
    ((d.opened.get? kind = none ∧ o.startMs = startMs ∧ o.kind = kind ∧ o.gate = gate ∧
        out = [o.copyAs "OPEN"]) ∨
      ∃ e, d.opened.get? kind = some e ∧ o.startMs = e.startMs ∧ o.kind = e.kind ∧
        o.gate = e.gate ∧ (out = [] ∨ out = [o.copyAs "UPDATE"])) := by
  unfold advance
  split
  · rename_i hnone
    exact ⟨_, _, _, rfl, rfl, Or.inl ⟨hnone, rfl, rfl, rfl, rfl⟩⟩
  · rename_i e he
    dsimp only
    split
    · exact ⟨_, _, _, rfl, rfl, Or.inr ⟨e, he, rfl, rfl, rfl, Or.inr rfl⟩⟩
    · exact ⟨_, _, _, rfl, rfl, Or.inr ⟨e, he, rfl, rfl, rfl, Or.inl rfl⟩⟩

theorem close_cases (d : ConditionDetector) (kind : String) (endMs : ℤ) (reason : String) :
    ∃ out, d.close kind endMs reason =
      ({ d with opened := d.opened.erase kind, lastUpdateMs := d.lastUpdateMs.erase kind }, out) ∧
    ((d.opened.get? kind = none ∧ out = []) ∨
      ∃ e c, d.opened.get? kind = some e ∧ out = [c] ∧ c.state = "CLOSED" ∧
        c.startMs = e.startMs ∧ c.lastMs = e.lastMs ∧ c.endMs = endMs ∧ c.kind = e.kind ∧
        c.gate = e.gate ∧ c.closeReason = reason) := by
  unfold close
  dsimp only
  split
  · rename_i hnone
    exact ⟨_, rfl, Or.inl ⟨hnone, rfl⟩⟩
  · rename_i e he
    exact ⟨_, rfl, Or.inr ⟨e, _, he, rfl, rfl, rfl, rfl, rfl, rfl, rfl, rfl⟩⟩

/-- Every kind is tracked, an open condition has the kind it is stored under, and every record has
the gate of its kind. -/
structure Tracks (d : ConditionDetector) (log : List ConditionEvent) (run : String → Option ℤ)
    (now : String → ℤ) : Prop where
  kinds : ∀ k, Track (d.opened.get? k) (ofKind k log) (run k) (now k)
  named : ∀ k e, d.opened.get? k = some e → e.kind = k ∧ e.gate = gateOf k
  gates : ∀ r ∈ log, r.gate = gateOf r.kind

namespace Tracks

theorem congr {d' : ConditionDetector} (h : Tracks d log run now) (hopened : d'.opened = d.opened) :
    Tracks d' log run now := by
  obtain ⟨hkinds, hnamed, hgates⟩ := h
  rw [← hopened] at hkinds hnamed
  exact ⟨hkinds, hnamed, hgates⟩

theorem wait {later : String → ℤ} (h : Tracks d log run now) (hle : ∀ k, now k ≤ later k) :
    Tracks d log run later :=
  ⟨fun k => (h.kinds k).wait (hle k), h.named, h.gates⟩

theorem beginAt {later : ℤ} (h : Tracks d log run now) (hrun : run kind = none)
    (hle : now kind ≤ later) :
    Tracks d log (Function.update run kind (some later)) (Function.update now kind later) := by
  refine ⟨fun k => ?_, h.named, h.gates⟩
  have hk := h.kinds k
  by_cases hkind : k = kind
  · subst hkind
    rw [hrun] at hk
    simpa using hk.beginAt hle
  · simpa [hkind] using hk

theorem drop (h : Tracks d log run now) (hnone : d.opened.get? kind = none) :
    Tracks d log (Function.update run kind none) now := by
  refine ⟨fun k => ?_, h.named, h.gates⟩
  have hk := h.kinds k
  by_cases hkind : k = kind
  · subst hkind
    rw [hnone] at hk ⊢
    simpa using hk.drop
  · simpa [hkind] using hk

theorem advance {startMs ts : ℤ} (h : Tracks d log run now) (kind : String)
    (evidence : List (String × EvidenceValue)) (hrun : run kind = some startMs) (hnow : now kind ≤ ts) :
    Tracks (d.advance (gateOf kind) kind startMs ts evidence).1
      (log ++ (d.advance (gateOf kind) kind startMs ts evidence).2) run
      (Function.update now kind ts) := by
  obtain ⟨o, updates, out, heq, hlast, hcases⟩ :=
    advance_cases d (gateOf kind) kind startMs ts evidence
  rw [heq]
  have hbegun : startMs ≤ now kind := (h.kinds kind).begun startMs hrun
  have hname : o.kind = kind ∧ o.gate = gateOf kind := by
    rcases hcases with ⟨-, -, hkind, hgate, -⟩ | ⟨e, he, -, hkind, hgate, -⟩
    · exact ⟨hkind, hgate⟩
    · obtain ⟨hk, hg⟩ := h.named kind e he
      exact ⟨hkind.trans hk, hgate.trans hg⟩
  have hrecord : ∀ r ∈ out, r.kind = kind ∧ r.gate = gateOf kind := by
    intro r hr
    rcases hcases with ⟨-, -, -, -, rfl⟩ | ⟨e, -, -, -, -, rfl | rfl⟩
    · rw [List.mem_singleton.mp hr]
      exact hname
    · exact absurd hr List.not_mem_nil
    · rw [List.mem_singleton.mp hr]
      exact hname
  have hout : ∀ r ∈ out, r.kind = kind := fun r hr => (hrecord r hr).1
  refine ⟨fun k => ?_, fun k e he => ?_, List.forall_mem_append.mpr ⟨h.gates, fun r hr => ?_⟩⟩
  · have hk := h.kinds k
    rw [ofKind_append]
    by_cases hkind : k = kind
    · subst hkind
      rw [ofKind_self hout, Function.update_self, Dict.get?_set_self, hrun]
      rw [hrun] at hk
      rcases hcases with ⟨hnone, hstart, -, -, rfl⟩ | ⟨e, he, hstart, -, -, hemitted⟩
      · rw [hnone] at hk
        rw [← hstart] at hk ⊢
        exact hk.openAt rfl rfl rfl (by omega) (by omega)
      · rw [he] at hk
        obtain ⟨-, done, -, -, -, -, hlast', -⟩ := id hk
        refine hk.extend hstart (by omega) (by omega) hnow ?_
        rcases hemitted with hemitted | hemitted
        · exact Or.inl hemitted
        · exact Or.inr ⟨_, hemitted, rfl, hstart, rfl⟩
    · rw [ofKind_other hout hkind, List.append_nil, Function.update_of_ne hkind]
      rw [Dict.get?_set_of_ne _ _ hkind]
      exact hk
  · rw [Dict.get?_set] at he
    split at he
    · rename_i hkind
      rw [← Option.some.inj he, hkind]
      exact hname
    · exact h.named k e he
  · rw [(hrecord r hr).1, (hrecord r hr).2]

theorem close {endMs later : ℤ} (h : Tracks d log run now) (kind reason : String)
    (hend : now kind < endMs) (hlater : endMs ≤ later) :
    Tracks (d.close kind endMs reason).1 (log ++ (d.close kind endMs reason).2)
      (Function.update run kind none) (Function.update now kind later) := by
  obtain ⟨out, heq, hcases⟩ := close_cases d kind endMs reason
  rw [heq]
  have hrecord : ∀ r ∈ out, r.kind = kind ∧ r.gate = gateOf kind := by
    intro r hr
    rcases hcases with ⟨-, rfl⟩ | ⟨e, c, he, rfl, -, -, -, -, hkind, hgate, -⟩
    · exact absurd hr List.not_mem_nil
    · rw [List.mem_singleton.mp hr, hkind, hgate]
      exact h.named kind e he
  have hout : ∀ r ∈ out, r.kind = kind := fun r hr => (hrecord r hr).1
  refine ⟨fun k => ?_, fun k e he => ?_, List.forall_mem_append.mpr ⟨h.gates, fun r hr => ?_⟩⟩
  · have hk := h.kinds k
    rw [ofKind_append, Dict.get?_erase]
    by_cases hkind : k = kind
    · subst hkind
      rw [ofKind_self hout, if_pos rfl, Function.update_self, Function.update_self]
      rcases hcases with ⟨hnone, rfl⟩ | ⟨e, c, he, rfl, hstate, hstart, hlast, hendc, -⟩
      · rw [hnone] at hk
        rw [List.append_nil]
        exact hk.drop.wait (by omega)
      · rw [he] at hk
        exact hk.closeAt hstate hstart hlast (by omega) (by omega)
    · rw [ofKind_other hout hkind, List.append_nil, if_neg hkind, Function.update_of_ne hkind,
        Function.update_of_ne hkind]
      exact hk
  · rw [Dict.get?_erase] at he
    split at he
    · exact absurd he (by simp)
    · exact h.named k e he
  · rw [(hrecord r hr).1, (hrecord r hr).2]

end Tracks

theorem closeAll_concat (d : ConditionDetector) (kinds : List String) (kind : String) (endMs : ℤ)
    (reason : String) : d.closeAll (kinds ++ [kind]) endMs reason =
      (((d.closeAll kinds endMs reason).1.close kind endMs reason).1,
        (d.closeAll kinds endMs reason).2 ++
          ((d.closeAll kinds endMs reason).1.close kind endMs reason).2) := by
  simp only [closeAll, List.foldl_append, List.foldl_cons, List.foldl_nil]

theorem closeAll_cases (d : ConditionDetector) (kinds : List String) (endMs : ℤ)
    (reason : String) : ∃ opened updates,
    (d.closeAll kinds endMs reason).1 = { d with opened := opened, lastUpdateMs := updates } ∧
      ∀ k, opened.get? k = if k ∈ kinds then none else d.opened.get? k := by
  induction kinds using List.reverseRecOn with
  | nil => exact ⟨d.opened, d.lastUpdateMs, rfl, fun k => rfl⟩
  | append_singleton kinds kind ih =>
    obtain ⟨opened, updates, heq, hget⟩ := ih
    obtain ⟨out, hclose, -⟩ := close_cases (d.closeAll kinds endMs reason).1 kind endMs reason
    refine ⟨opened.erase kind, updates.erase kind, ?_, fun k => ?_⟩
    · rw [closeAll_concat, hclose, heq]
    · rw [Dict.get?_erase, hget]
      by_cases hk : k = kind
      · simp [hk]
      · simp [hk]

theorem Tracks.closeAll {kinds : List String} {before endMs later : ℤ}
    (h : Tracks d log run fun _ => before) (reason : String) (hnodup : kinds.Nodup) (hend : before < endMs)
    (hlater : endMs ≤ later) :
    Tracks (d.closeAll kinds endMs reason).1 (log ++ (d.closeAll kinds endMs reason).2)
      (fun k => if k ∈ kinds then none else run k) (fun _ => later) := by
  suffices hkinds : Tracks (d.closeAll kinds endMs reason).1
      (log ++ (d.closeAll kinds endMs reason).2) (fun k => if k ∈ kinds then none else run k)
      (fun k => if k ∈ kinds then later else before) from
    hkinds.wait fun k => by split <;> omega
  induction kinds using List.reverseRecOn with
  | nil => simpa [ConditionDetector.closeAll] using h
  | append_singleton kinds kind ih =>
    obtain ⟨hnodup', -, hdisjoint⟩ := List.nodup_append.mp hnodup
    have hkind : kind ∉ kinds := fun hmem => hdisjoint kind hmem kind List.mem_cons_self rfl
    have hclosed := (ih hnodup').close kind reason (by simpa [hkind] using hend) hlater
    rw [closeAll_concat, ← List.append_assoc]
    convert hclosed using 1
    · funext k
      by_cases hk : k = kind
      · simp [hk]
      · simp [hk]
    · funext k
      by_cases hk : k = kind
      · simp [hk]
      · simp [hk]

/-! ## One sample -/

def runOf (d : ConditionDetector) (kind : String) : Option ℤ :=
  if kind = "FREEZE" then (if d.freezeRunStartMs = minLong then none else some d.freezeRunStartMs)
  else if d.limitSide = some kind then some d.limitRunStartMs
  else none

theorem runOf_advance (gate kind' : String) (startMs ts : ℤ)
    (evidence : List (String × EvidenceValue)) :
    (d.advance gate kind' startMs ts evidence).1.runOf = d.runOf := by
  obtain ⟨o, updates, out, heq, -⟩ := advance_cases d gate kind' startMs ts evidence
  rw [heq]
  rfl

theorem runOf_close (kind' : String) (endMs : ℤ) (reason : String) :
    (d.close kind' endMs reason).1.runOf = d.runOf := by
  obtain ⟨out, heq, -⟩ := close_cases d kind' endMs reason
  rw [heq]
  rfl

theorem runOf_freezeRunStart (r : ℤ) : runOf { d with freezeRunStartMs := r } =
    Function.update d.runOf "FREEZE" (if r = minLong then none else some r) := by
  funext k
  by_cases hk : k = "FREEZE"
  · subst hk
    simp [runOf]
  · simp [runOf, hk]

theorem runOf_limitSide (side : Option String) (r : ℤ) :
    runOf { d with limitSide := side, limitRunStartMs := r } =
      fun k => if k = "FREEZE" then d.runOf k else if side = some k then some r else none := by
  funext k
  by_cases hk : k = "FREEZE"
  · subst hk
    simp [runOf]
  · simp [runOf, hk]

end ConditionDetector

end OpenBridge.Conditions
