import OpenBridge.Foundation.Machine
import OpenBridge.Ingestion.DataSourceEndpoints

/-!
# Ingestion: the subscribers that run

`OtIngestionHostService.ReconcileAsync`: a pass stops the subscribers of the sources that are gone,
parks those that lose to an older one, and starts those that are new or changed.  A pass that throws
leaves rows unvisited, and the next one starts from what it left.
-/

namespace OpenBridge.Ingestion

open OpenBridge.Foundation LoopSourceConflicts

/-- `Running`; a parked one has the message of its status. -/
structure Running where
  fingerprint : String
  parked : Option String
  deriving DecidableEq

inductive SubscriberAction
  | start (configId : Guid)
  | stop (configId : Guid)
  | park (configId : Guid)

def SubscriberAction.configId : SubscriberAction → Guid
  | .start id | .stop id | .park id => id

/-- What the service takes from the platform, and the fingerprint of a row: what a subscriber has to
be restarted for. -/
structure IngestionHost where
  tryCreate : String → Option Uri
  lower : String → String
  fingerprint : DataSourceRow → String

def healthProfile : String := "INSTRUMENTAL_HEALTH"

def wanted (rows : List DataSourceRow) : List DataSourceRow :=
  (listActive rows).filter fun r => isLoop r ∨ r.profileType = some healthProfile

def isWanted (rows : List DataSourceRow) (id : Guid) : Bool :=
  (wanted rows).any fun r => r.configId = id

def parkedMessage (winner : DataSourceRow) : String :=
  "duplicate feed: overlaps '" ++ winner.name ++ "'"

namespace IngestionHost

section Pass

variable (host : IngestionHost) (losers : Dict Guid DataSourceRow) (rows : List DataSourceRow)
  (reload : Guid → Bool) (running : Dict Guid Running)

def losersOf : Dict Guid DataSourceRow := resolveLosers host.tryCreate host.lower (wanted rows)

/-- What a pass does for a row it wants. -/
def visit (row : DataSourceRow) : Dict Guid Running × List SubscriberAction :=
  let held := running.get? row.configId
  let stops := if held.isSome then [SubscriberAction.stop row.configId] else []
  match losers.get? row.configId with
  | some winner =>
      if held.bind Running.parked = some (parkedMessage winner) then (running, [])
      else (running.set row.configId ⟨host.fingerprint row, some (parkedMessage winner)⟩,
        stops ++ [.park row.configId])
  | none =>
      if held = some ⟨host.fingerprint row, none⟩ ∧ ¬ reload row.configId then (running, [])
      else (running.set row.configId ⟨host.fingerprint row, none⟩,
        stops ++ [.start row.configId])

/-- `ReconcileAsync`. -/
def reconcile : Dict Guid Running × List SubscriberAction :=
  let pass := Machine.run (host.visit (host.losersOf rows) reload)
    (running.filter fun e => isWanted rows e.1) (wanted rows)
  (pass.1, (running.keys.filter fun id => ¬ isWanted rows id).map .stop ++ pass.2)

/-- What a pass makes of a row: a loser is parked under its winner, any other source runs with what
the row says now. -/
def Settled (row : DataSourceRow) : Prop :=
  match losers.get? row.configId with
  | some winner =>
      (running.get? row.configId).bind Running.parked = some (parkedMessage winner)
  | none => running.get? row.configId = some ⟨host.fingerprint row, none⟩

/-- A subscriber for each wanted row and no other, each as the row says, and those that run apart. -/
structure Reconciled : Prop where
  held : ∀ id, id ∈ running.keys ↔ isWanted rows id
  settled : ∀ r ∈ wanted rows, host.Settled (host.losersOf rows) running r
  apart : ∀ a ∈ sources rows, ∀ b ∈ sources rows,
    (running.get? a.configId).bind Running.parked = none →
      (running.get? b.configId).bind Running.parked = none →
        conflicts host.tryCreate host.lower a b = false

end Pass

variable {host : IngestionHost} {losers : Dict Guid DataSourceRow} {reload : Guid → Bool}
  {running running' : Dict Guid Running} {row : DataSourceRow} {l rows : List DataSourceRow}
  {id : Guid} {a : SubscriberAction}

/-! ## One row -/

theorem visit_settled : host.Settled losers (host.visit losers reload running row).1 row := by
  unfold Settled visit
  dsimp only
  cases losers.get? row.configId with
  | some winner =>
    dsimp only
    split
    · rename_i h
      exact h
    · rw [Dict.get?_set_self]
      rfl
  | none =>
    dsimp only
    split
    · rename_i h
      exact h.1
    · exact Dict.get?_set_self ..

theorem visit_of_settled (h : host.Settled losers running row)
    (hreload : reload row.configId = false) :
    host.visit losers reload running row = (running, []) := by
  unfold Settled at h
  unfold visit
  dsimp only
  cases hloser : losers.get? row.configId with
  | some winner =>
    rw [hloser] at h
    exact if_pos h
  | none =>
    rw [hloser] at h
    exact if_pos ⟨h, by rw [hreload]; exact Bool.false_ne_true⟩

theorem get?_visit_of_ne (h : id ≠ row.configId) :
    (host.visit losers reload running row).1.get? id = running.get? id := by
  unfold visit
  dsimp only
  split <;> split <;> first | rfl | exact Dict.get?_set_of_ne _ _ h

theorem configId_of_mem_visit (h : a ∈ (host.visit losers reload running row).2) :
    a.configId = row.configId := by
  unfold visit at h
  grind [SubscriberAction.configId]

theorem Settled.congr (h : running'.get? row.configId = running.get? row.configId) :
    host.Settled losers running' row ↔ host.Settled losers running row := by
  unfold Settled
  rw [h]

theorem Settled.isSome (h : host.Settled losers running row) :
    (running.get? row.configId).isSome := by
  unfold Settled at h
  split at h
  · obtain ⟨e, he, -⟩ := Option.bind_eq_some_iff.mp h
    rw [he, Option.isSome_some]
  · rw [h, Option.isSome_some]

/-! ## The rows of a pass -/

theorem get?_pass_of_ne (h : ∀ r ∈ l, id ≠ r.configId) :
    (Machine.stateAfter (host.visit losers reload) running l).get? id = running.get? id := by
  induction l generalizing running with
  | nil => rfl
  | cons r rest ih =>
    rw [Machine.stateAfter_cons, ih fun r' hr' => h r' (List.mem_cons_of_mem _ hr')]
    exact get?_visit_of_ne (h r List.mem_cons_self)

theorem pass_settles (hids : (l.map DataSourceRow.configId).Nodup) :
    ∀ r ∈ l, host.Settled losers (Machine.stateAfter (host.visit losers reload) running l) r := by
  induction l generalizing running with
  | nil => exact fun r hr => absurd hr List.not_mem_nil
  | cons r rest ih =>
    obtain ⟨hhead, hrest⟩ := List.nodup_cons.mp hids
    rw [Machine.stateAfter_cons]
    refine List.forall_mem_cons.mpr ⟨?_, ih hrest⟩
    refine (Settled.congr (get?_pass_of_ne fun r' hr' heq => ?_)).mpr visit_settled
    exact hhead (List.mem_map.mpr ⟨r', hr', heq.symm⟩)

theorem pass_of_settled (h : ∀ r ∈ l, host.Settled losers running r) :
    Machine.run (host.visit losers fun _ => false) running l = (running, []) := by
  induction l with
  | nil => rfl
  | cons r rest ih =>
    obtain ⟨hhead, hrest⟩ := List.forall_mem_cons.mp h
    rw [Machine.run, visit_of_settled hhead rfl]
    exact ih hrest

/-- The actions of a pass are for rows that were not settled, or are reloaded. -/
theorem exists_of_mem_pass (hids : (l.map DataSourceRow.configId).Nodup)
    (h : a ∈ Machine.outputs (host.visit losers reload) running l) :
    ∃ r ∈ l, a.configId = r.configId ∧
      ¬ (host.Settled losers running r ∧ reload r.configId = false) := by
  induction l generalizing running with
  | nil => cases h
  | cons r rest ih =>
    obtain ⟨hhead, hrest⟩ := List.nodup_cons.mp hids
    rw [Machine.outputs_cons] at h
    rcases List.mem_append.mp h with h | h
    · refine ⟨r, List.mem_cons_self, configId_of_mem_visit h, fun hsettled => ?_⟩
      rw [visit_of_settled hsettled.1 hsettled.2] at h
      cases h
    · obtain ⟨r', hr', hid, hunsettled⟩ := ih hrest h
      have hne : r'.configId ≠ r.configId := fun heq => hhead (List.mem_map.mpr ⟨r', hr', heq⟩)
      rw [Settled.congr (get?_visit_of_ne hne)] at hunsettled
      exact ⟨r', List.mem_cons_of_mem _ hr', hid, hunsettled⟩

/-! ## A pass -/

theorem isWanted_iff : isWanted rows id = true ↔ ∃ r ∈ wanted rows, r.configId = id := by
  simp only [isWanted, List.any_eq_true, decide_eq_true_eq]

theorem nodup_wanted (hids : (rows.map DataSourceRow.configId).Nodup) :
    ((wanted rows).map DataSourceRow.configId).Nodup :=
  hids.sublist ((List.filter_sublist.trans List.filter_sublist).map _)

theorem mem_sources_wanted (h : row ∈ sources rows) :
    row ∈ wanted rows ∧ row ∈ sources (wanted rows) := by
  obtain ⟨hmem, hactive, hloop⟩ := mem_sources.mp h
  have hwanted : row ∈ wanted rows :=
    List.mem_filter.mpr ⟨List.mem_filter.mpr ⟨hmem, hactive⟩, decide_eq_true (.inl hloop)⟩
  exact ⟨hwanted, mem_sources.mpr ⟨hwanted, hactive, hloop⟩⟩

theorem get?_stillWanted (h : row ∈ wanted rows) :
    (running.filter fun e => isWanted rows e.1).get? row.configId = running.get? row.configId := by
  have hwanted : isWanted rows row.configId = true := isWanted_iff.mpr ⟨row, h, rfl⟩
  rw [Dict.get?_filter]
  cases running.get? row.configId with
  | none => rfl
  | some _ => exact if_pos hwanted

/-- A source that runs lost to none. -/
theorem Settled.mem_winners (hids : (rows.map DataSourceRow.configId).Nodup)
    (h : host.Settled (host.losersOf rows) running row) (hrow : row ∈ sources rows)
    (hruns : (running.get? row.configId).bind Running.parked = none) :
    row ∈ Greedy.winners (conflicts host.tryCreate host.lower) (order (sources (wanted rows))) := by
  have hkept : ¬ IsLoser host.tryCreate host.lower (wanted rows) row := by
    unfold Settled losersOf at h
    unfold IsLoser
    rw [Dict.mem_keys_iff_isSome]
    intro hloser
    obtain ⟨w, hw⟩ := Option.isSome_iff_exists.mp hloser
    rw [hw] at h
    exact Option.some_ne_none _ (h.symm.trans hruns)
  rwa [isLoser_iff (nodup_wanted hids) (mem_sources_wanted hrow).2, not_not] at hkept

theorem reconciled_pass (hids : (rows.map DataSourceRow.configId).Nodup) :
    host.Reconciled rows (host.reconcile rows reload running).1 := by
  have hsettled : ∀ r ∈ wanted rows, host.Settled (host.losersOf rows)
      (host.reconcile rows reload running).1 r := pass_settles (nodup_wanted hids)
  refine ⟨fun id => ?_, hsettled, fun a ha b hb haruns hbruns => ?_⟩
  · rw [Dict.mem_keys_iff_isSome]
    constructor
    · intro h
      by_contra hout
      have hget : (host.reconcile rows reload running).1.get? id =
          (running.filter fun e => isWanted rows e.1).get? id :=
        get?_pass_of_ne fun r hr heq => hout (isWanted_iff.mpr ⟨r, hr, heq.symm⟩)
      rw [hget, Dict.get?_filter] at h
      obtain ⟨e, he⟩ := Option.isSome_iff_exists.mp h
      exact hout (Option.filter_eq_some_iff.mp he).2
    · intro h
      obtain ⟨r, hr, rfl⟩ := isWanted_iff.mp h
      exact (hsettled r hr).isSome
  · exact conflicts_of_mem_winners
      ((hsettled a (mem_sources_wanted ha).1).mem_winners hids ha haruns)
      ((hsettled b (mem_sources_wanted hb).1).mem_winners hids hb hbruns)

theorem Reconciled.quiet (h : host.Reconciled rows running) :
    host.reconcile rows (fun _ => false) running = (running, []) := by
  have hkept : (running.filter fun e => isWanted rows e.1) = running :=
    Dict.ext (List.filter_eq_self.mpr fun e he => (h.held e.1).mp (List.mem_map_of_mem he))
  have hgone : (running.keys.filter fun id => ¬ isWanted rows id) = [] :=
    List.filter_eq_nil_iff.mpr fun id hid => by simp [(h.held id).mp hid]
  unfold reconcile
  rw [hkept, pass_of_settled h.settled, hgone]
  rfl

/-- Two sources that take the same topic, while the younger one runs. -/
private def plantHost : IngestionHost := ⟨readBroker, toLowerInvariant, DataSourceRow.name⟩

private def plantRow (id : Guid) (createdAt : ℤ) : DataSourceRow :=
  ⟨id, some loopProfile, "P", "mqtt://b", some ⟨some [some "plant/+"], none⟩, true, createdAt⟩

private def youngerRuns : Dict Guid Running := Dict.empty.set 2 ⟨"P", none⟩

end IngestionHost

end OpenBridge.Ingestion
