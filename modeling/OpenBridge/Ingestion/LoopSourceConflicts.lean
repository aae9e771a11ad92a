import Mathlib.Data.List.Sort
import OpenBridge.Foundation.Greedy
import OpenBridge.Foundation.Guid
import OpenBridge.Ingestion.DataSourceValidation

/-!
# Ingestion: overlapping loop sources

`LoopSourceConflicts`: two active loop sources on one broker that overlap deliver every sample
twice.

`tryCreate` is `Uri.TryCreate` for an absolute address and `lower` is `ToLowerInvariant`.
-/

namespace OpenBridge.Ingestion

open OpenBridge.Foundation

structure Uri where
  scheme : String
  host : String
  port : ℤ
  isDefaultPort : Bool

/-- `profile_config.mqtt`, as far as it decides what a source receives. -/
structure MqttConfig where
  topics : Option (List (Option String))
  clientId : Option String
  deriving DecidableEq

/-- A row of `ingestion.data_source_configs`, with its profile configuration as `FromJson` reads
it. -/
structure DataSourceRow where
  configId : Guid
  profileType : Option String
  name : String
  connectionUrl : String
  mqtt : Option MqttConfig
  isActive : Bool
  createdAt : ℤ
  deriving DecidableEq

namespace LoopSourceConflicts

def loopProfile : String := "MQTT_LOOP_SAMPLES"

def isLoop (r : DataSourceRow) : Bool := r.profileType = some loopProfile

def topics (r : DataSourceRow) : List String :=
  ((r.mqtt.bind MqttConfig.topics).getD []).filterMap fun t =>
    t.bind fun t => if blank t then none else some (trim t)

/-- `ClientId`: the one of the configuration, else one derived from the id of the row. -/
def clientId (r : DataSourceRow) : String :=
  match r.mqtt.bind MqttConfig.clientId with
  | none => "ingestion-" ++ Guid.text r.configId
  | some id => if blank id then "ingestion-" ++ Guid.text r.configId else trim id

def levelsOverlap : List String → List String → Bool
  | [], [] => true
  | x :: _, [] => x = "#"
  | [], y :: _ => y = "#"
  | x :: xs, y :: ys =>
      if x = "#" ∨ y = "#" then true
      else if x ≠ "+" ∧ y ≠ "+" ∧ x ≠ y then false
      else levelsOverlap xs ys

/-- `FiltersOverlap`: `+` matches one level, `#` the rest. -/
def filtersOverlap (a b : String) : Bool :=
  levelsOverlap ((a.toList.splitOn '/').map String.ofList) ((b.toList.splitOn '/').map String.ofList)

def topicsOverlap (a b : List String) : Bool := a.any fun fa => b.any fun fb => filtersOverlap fa fb

/-- The order of `Order`: by `CreatedAt`, then by `ConfigId`. -/
def notAfter (a b : DataSourceRow) : Prop :=
  a.createdAt < b.createdAt ∨ a.createdAt = b.createdAt ∧ a.configId.val ≤ b.configId.val

instance : DecidableRel notAfter := fun a b => by unfold notAfter; infer_instance

def order (rows : List DataSourceRow) : List DataSourceRow := rows.insertionSort notAfter

section Platform

variable (tryCreate : String → Option Uri) (lower : String → String)

/-- `NormalizeEndpoint`: `scheme://host:port` in lower case, with the default port of the scheme. -/
def normalizeEndpoint (url : String) : Option String :=
  if blank url then none
  else
    match tryCreate (trim url) with
    | none => none
    | some uri =>
        if uri.host = "" then none
        else
          let scheme := lower uri.scheme
          let isTls := scheme = "mqtts" ∨ scheme = "ssl"
          let port :=
            if uri.isDefaultPort ∨ uri.port ≤ 0 then (if isTls then 8883 else 1883) else uri.port
          some (scheme ++ "://" ++ lower uri.host ++ ":" ++ toString port)

def sameEndpoint (a b : DataSourceRow) : Bool :=
  (normalizeEndpoint tryCreate lower a.connectionUrl).isSome ∧
    normalizeEndpoint tryCreate lower a.connectionUrl =
      normalizeEndpoint tryCreate lower b.connectionUrl

/-- `Conflicts`: the two loop sources would deliver twice. -/
def conflicts (a b : DataSourceRow) : Bool :=
  a.configId ≠ b.configId ∧ isLoop a ∧ isLoop b ∧ sameEndpoint tryCreate lower a b ∧
    (topicsOverlap (topics a) (topics b) ∨ clientId a = clientId b)

/-- `FindConflict`: the oldest active source that the candidate conflicts with. -/
def findConflict (candidate : DataSourceRow) (others : List DataSourceRow) :
    Option DataSourceRow :=
  if isLoop candidate then
    (order others).find? fun o => o.isActive && conflicts tryCreate lower candidate o
  else none

/-- The loop of `ResolveLosers`: the losers with their winners, and the winners. -/
def resolve (state : Dict Guid DataSourceRow × List DataSourceRow) (r : DataSourceRow) :
    Dict Guid DataSourceRow × List DataSourceRow :=
  match state.2.find? fun w => conflicts tryCreate lower r w with
  | none => (state.1, state.2 ++ [r])
  | some hit => (state.1.set r.configId hit, state.2)

def sources (rows : List DataSourceRow) : List DataSourceRow :=
  rows.filter fun r => r.isActive && isLoop r

/-- `ResolveLosers`: the id of a loser with the winner it conflicts with. -/
def resolveLosers (rows : List DataSourceRow) : Dict Guid DataSourceRow :=
  ((order (sources rows)).foldl (resolve tryCreate lower) (Dict.empty, [])).1

def IsLoser (rows : List DataSourceRow) (r : DataSourceRow) : Prop :=
  r.configId ∈ (resolveLosers tryCreate lower rows).keys

end Platform

/-- `a` is older than `b`. -/
def Older (a b : DataSourceRow) : Prop := notAfter a b ∧ a.configId ≠ b.configId

instance : DecidableRel Older := fun a b => by unfold Older; infer_instance

/-! ## The order of the sources -/

instance : Std.Total notAfter := ⟨fun a b => by unfold notAfter; omega⟩

instance : IsTrans DataSourceRow notAfter := ⟨fun a b c hab hbc => by unfold notAfter at *; omega⟩

instance : Std.Asymm Older := ⟨fun a b hab hba => by
  obtain ⟨hab, hne⟩ := hab
  obtain ⟨hba, -⟩ := hba
  unfold notAfter at hab hba
  exact hne (Fin.ext (by omega))⟩

/-! ## Conflicts are mutual -/

theorem levelsOverlap_comm (xs ys : List String) : levelsOverlap xs ys = levelsOverlap ys xs := by
  induction xs generalizing ys with
  | nil =>
    cases ys with
    | nil => rfl
    | cons y ys => rfl
  | cons x xs ih =>
    cases ys with
    | nil => rfl
    | cons y ys =>
      unfold levelsOverlap
      rw [ih ys]
      have hwild : (x = "#" ∨ y = "#") ↔ (y = "#" ∨ x = "#") := or_comm
      have hdiffer : (x ≠ "+" ∧ y ≠ "+" ∧ x ≠ y) ↔ (y ≠ "+" ∧ x ≠ "+" ∧ y ≠ x) := by tauto
      simp only [hwild, hdiffer]

theorem topicsOverlap_comm (a b : List String) : topicsOverlap a b = topicsOverlap b a := by
  have himp : ∀ a b : List String, topicsOverlap a b = true → topicsOverlap b a = true := by
    intro a b h
    obtain ⟨fa, hfa, h⟩ := List.any_eq_true.mp h
    obtain ⟨fb, hfb, h⟩ := List.any_eq_true.mp h
    refine List.any_eq_true.mpr ⟨fb, hfb, List.any_eq_true.mpr ⟨fa, hfa, ?_⟩⟩
    unfold filtersOverlap at h ⊢
    rwa [levelsOverlap_comm]
  exact Bool.eq_iff_iff.mpr ⟨himp a b, himp b a⟩

section Resolution

variable {tryCreate : String → Option Uri} {lower : String → String}

theorem conflicts_comm (a b : DataSourceRow) :
    conflicts tryCreate lower a b = conflicts tryCreate lower b a := by
  have himp : ∀ a b : DataSourceRow, conflicts tryCreate lower a b = true →
      conflicts tryCreate lower b a = true := by
    intro a b h
    unfold conflicts sameEndpoint at h ⊢
    simp only [decide_eq_true_eq] at h ⊢
    obtain ⟨hne, ha, hb, ⟨hsome, hsame⟩, hclash⟩ := h
    rw [topicsOverlap_comm] at hclash
    exact ⟨hne.symm, hb, ha, ⟨hsame ▸ hsome, hsame.symm⟩, hclash.imp_right Eq.symm⟩
  exact Bool.eq_iff_iff.mpr ⟨himp a b, himp b a⟩

theorem configId_ne_of_conflicts {a b : DataSourceRow}
    (h : conflicts tryCreate lower a b = true) : a.configId ≠ b.configId := by
  unfold conflicts at h
  rw [decide_eq_true_eq] at h
  exact h.1

/-! ## The order of a set of sources -/

theorem pairwise_order {rows : List DataSourceRow}
    (hids : (rows.map DataSourceRow.configId).Nodup) : (order rows).Pairwise Older := by
  have hperm : (order rows).Perm rows := List.perm_insertionSort notAfter rows
  have hnodup := (hperm.map DataSourceRow.configId).nodup_iff.mpr hids
  exact (List.pairwise_insertionSort notAfter rows).and (List.pairwise_map.mp hnodup)

theorem mem_order {rows : List DataSourceRow} {r : DataSourceRow} : r ∈ order rows ↔ r ∈ rows :=
  List.mem_insertionSort notAfter

theorem order_eq_of_perm {rows rows' : List DataSourceRow} (hperm : rows.Perm rows')
    (hids : (rows.map DataSourceRow.configId).Nodup) : order rows' = order rows := by
  refine List.Perm.eq_of_pairwise (fun a b ha hb hab hba => ?_)
    (List.pairwise_insertionSort _ _) (List.pairwise_insertionSort _ _)
    (((List.perm_insertionSort _ _).trans hperm.symm).trans (List.perm_insertionSort _ _).symm)
  have ha := hperm.symm.subset (mem_order.mp ha)
  refine List.inj_on_of_nodup_map hids ha (mem_order.mp hb) (Fin.ext ?_)
  unfold notAfter at hab hba
  omega

theorem older_of_find? {l : List DataSourceRow} {p : DataSourceRow → Bool}
    {first o r : DataSourceRow} (h : l.Pairwise Older) (hfirst : l.find? p = some first)
    (ho : o ∈ l) (hp : p o = true) (holder : Older o r) (hne : first.configId ≠ r.configId) :
    Older first r := by
  obtain ⟨-, before, after, rfl, hnone⟩ := List.find?_eq_some_iff_append.mp hfirst
  rcases List.mem_append.mp ho with hbefore | hrest
  · have hno := hnone o hbefore
    rw [hp] at hno
    cases hno
  · rcases List.mem_cons.mp hrest with rfl | hafter
    · exact holder
    · have hfirstolder := List.rel_of_pairwise_cons (List.pairwise_append.mp h).2.1 hafter
      exact ⟨IsTrans.trans _ _ _ hfirstolder.1 holder.1, hne⟩

/-! ## The loop keeps the winners and lists the losers -/

variable {l : List DataSourceRow}

def resolved (tryCreate : String → Option Uri) (lower : String → String)
    (l : List DataSourceRow) : Dict Guid DataSourceRow × List DataSourceRow :=
  l.foldl (resolve tryCreate lower) (Dict.empty, [])

theorem resolved_concat (l : List DataSourceRow) (r : DataSourceRow) :
    resolved tryCreate lower (l ++ [r]) =
      resolve tryCreate lower (resolved tryCreate lower l) r := by
  unfold resolved
  rw [List.foldl_append, List.foldl_cons, List.foldl_nil]

theorem winners_eq (l : List DataSourceRow) : (resolved tryCreate lower l).2 =
    Greedy.winners (conflicts tryCreate lower) l := by
  induction l using List.reverseRecOn with
  | nil => rfl
  | append_singleton l r ih =>
    rw [resolved_concat, Greedy.winners_concat, ← ih]
    unfold resolve
    cases hfind : (resolved tryCreate lower l).2.find? fun w => conflicts tryCreate lower r w with
    | none =>
      rw [List.find?_eq_none] at hfind
      have hnone : (resolved tryCreate lower l).2.any (conflicts tryCreate lower r) = false :=
        List.any_eq_false.mpr hfind
      rw [hnone]
      rfl
    | some hit =>
      have hany : (resolved tryCreate lower l).2.any (conflicts tryCreate lower r) = true :=
        List.any_eq_true.mpr ⟨hit, List.mem_of_find?_eq_some hfind, List.find?_some hfind⟩
      rw [hany]
      rfl

theorem conflicts_of_mem_winners {l : List DataSourceRow} {a b : DataSourceRow}
    (ha : a ∈ Greedy.winners (conflicts tryCreate lower) l)
    (hb : b ∈ Greedy.winners (conflicts tryCreate lower) l) :
    conflicts tryCreate lower a b = false := by
  have hsymm : Std.Symm fun a b => conflicts tryCreate lower b a = false :=
    ⟨fun a b h => by rwa [conflicts_comm]⟩
  by_contra hclash
  rw [Bool.not_eq_false] at hclash
  have hne : a ≠ b := fun heq => configId_ne_of_conflicts hclash (heq ▸ rfl)
  have hfree := (Greedy.pairwise_winners l).forall hb ha hne.symm
  rw [hclash] at hfree
  cases hfree

theorem keys_resolved_subset {id : Guid} (h : id ∈ (resolved tryCreate lower l).1.keys) :
    ∃ r ∈ l, r.configId = id := by
  induction l using List.reverseRecOn with
  | nil => cases h
  | append_singleton l a ih =>
    rw [resolved_concat] at h
    unfold resolve at h
    have hold : id ∈ (resolved tryCreate lower l).1.keys → ∃ r ∈ l ++ [a], r.configId = id := by
      intro hmem
      obtain ⟨r, hr, hid⟩ := ih hmem
      exact ⟨r, List.mem_append_left _ hr, hid⟩
    split at h
    · exact hold h
    · rcases Dict.mem_keys_set.mp h with hid | hmem
      · exact ⟨a, List.mem_append_right _ (List.mem_singleton_self a), hid.symm⟩
      · exact hold hmem

theorem get?_resolved (h : l.Pairwise Older) {r : DataSourceRow} (hr : r ∈ l) :
    (resolved tryCreate lower l).1.get? r.configId =
      (resolved tryCreate lower l).2.find? (conflicts tryCreate lower r) := by
  induction l using List.reverseRecOn generalizing r with
  | nil => cases hr
  | append_singleton l a ih =>
    obtain ⟨hl, -, hlast⟩ := List.pairwise_append.mp h
    have hother : ∀ r ∈ l, r.configId ≠ a.configId :=
      fun r hr => (hlast r hr a (List.mem_singleton_self a)).2
    rw [resolved_concat]
    unfold resolve
    cases hfind : (resolved tryCreate lower l).2.find? (conflicts tryCreate lower a) with
    | none =>
      dsimp only
      rw [List.find?_append]
      have hfree := List.find?_eq_none.mp hfind
      rcases List.mem_append.mp hr with hr | hr
      · rw [ih hl hr]
        cases hold : (resolved tryCreate lower l).2.find? (conflicts tryCreate lower r) with
        | some w => rfl
        | none =>
          -- `r` is a winner, so `a` does not conflict with it
          have hunhit := List.find?_eq_none.mp hold
          rw [winners_eq] at hfree hunhit
          have hwinner := (Greedy.mem_winners_iff hl hr).mpr fun w hw _ =>
            Bool.not_eq_true _ ▸ hunhit w hw
          have hclash := hfree r hwinner
          rw [conflicts_comm] at hclash
          rw [Option.none_or, List.find?_cons_of_neg hclash, List.find?_nil]
      · obtain rfl := List.mem_singleton.mp hr
        have hself : ¬ conflicts tryCreate lower r r = true :=
          fun hclash => configId_ne_of_conflicts hclash rfl
        rw [hfind, Option.none_or, List.find?_cons_of_neg hself, List.find?_nil,
          Dict.get?_eq_none_iff]
        intro hmem
        obtain ⟨r', hr', hid⟩ := keys_resolved_subset hmem
        exact hother r' hr' hid
    | some hit =>
      dsimp only
      rcases List.mem_append.mp hr with hr | hr
      · rw [Dict.get?_set_of_ne _ _ (hother r hr), ih hl hr]
      · rw [List.mem_singleton.mp hr, Dict.get?_set_self, hfind]

theorem mem_keys_resolved (h : l.Pairwise Older) {r : DataSourceRow} (hr : r ∈ l) :
    r.configId ∈ (resolved tryCreate lower l).1.keys ↔
      r ∉ Greedy.winners (conflicts tryCreate lower) l := by
  rw [Dict.mem_keys_iff_isSome, get?_resolved h hr, winners_eq, List.find?_isSome]
  constructor
  · intro hhit hwinner
    obtain ⟨w, hw, hclash⟩ := hhit
    rw [conflicts_of_mem_winners hwinner hw] at hclash
    cases hclash
  · intro hout
    obtain ⟨w, hw, -, hclash⟩ := Greedy.exists_of_not_mem_winners h hr hout
    exact ⟨w, hw, hclash⟩

end Resolution

/-! ## What the two rules promise -/

section Promise

variable (tryCreate : String → Option Uri) (lower : String → String)

def RefusedByOlder (rows : List DataSourceRow) (r : DataSourceRow) : Prop :=
  ∃ o, findConflict tryCreate lower r rows = some o ∧ Older o r

/-- The sources kept do not conflict, a loser conflicts with an older source that is kept, the order
of the rows does not matter, and the losers are the sources that the endpoints refuse for an older
one. -/
structure ResolvesConflicts (rows : List DataSourceRow) : Prop where
  kept : ∀ a ∈ sources rows, ∀ b ∈ sources rows, ¬ IsLoser tryCreate lower rows a →
    ¬ IsLoser tryCreate lower rows b → conflicts tryCreate lower a b = false
  parked : ∀ r ∈ sources rows, IsLoser tryCreate lower rows r →
    ∃ w ∈ sources rows, (resolveLosers tryCreate lower rows).get? r.configId = some w ∧
      ¬ IsLoser tryCreate lower rows w ∧ Older w r ∧ conflicts tryCreate lower r w = true
  anyOrder : ∀ rows' : List DataSourceRow, rows.Perm rows' →
    resolveLosers tryCreate lower rows' = resolveLosers tryCreate lower rows
  agrees : ∀ r ∈ sources rows,
    IsLoser tryCreate lower rows r ↔ RefusedByOlder tryCreate lower rows r

end Promise

section Agreement

variable {tryCreate : String → Option Uri} {lower : String → String}
  {rows : List DataSourceRow}

theorem mem_sources {r : DataSourceRow} :
    r ∈ sources rows ↔ r ∈ rows ∧ r.isActive = true ∧ isLoop r = true := by
  unfold sources
  rw [List.mem_filter, Bool.and_eq_true]

theorem nodup_sources (hids : (rows.map DataSourceRow.configId).Nodup) :
    ((sources rows).map DataSourceRow.configId).Nodup :=
  hids.sublist (List.filter_sublist.map _)

theorem isLoser_iff (hids : (rows.map DataSourceRow.configId).Nodup) {r : DataSourceRow}
    (hr : r ∈ sources rows) : IsLoser tryCreate lower rows r ↔
      r ∉ Greedy.winners (conflicts tryCreate lower) (order (sources rows)) :=
  mem_keys_resolved (pairwise_order (nodup_sources hids)) (mem_order.mpr hr)

theorem refusedByOlder_iff (hids : (rows.map DataSourceRow.configId).Nodup) {r : DataSourceRow}
    (hr : r ∈ sources rows) : RefusedByOlder tryCreate lower rows r ↔
      ∃ o ∈ sources rows, Older o r ∧ conflicts tryCreate lower r o = true := by
  unfold RefusedByOlder findConflict
  rw [if_pos (mem_sources.mp hr).2.2]
  have hsource : ∀ o ∈ rows, o.isActive && conflicts tryCreate lower r o → o ∈ sources rows := by
    intro o ho hhit
    rw [Bool.and_eq_true] at hhit
    have hloop := hhit.2
    unfold conflicts at hloop
    rw [decide_eq_true_eq] at hloop
    exact mem_sources.mpr ⟨ho, hhit.1, hloop.2.2.1⟩
  constructor
  · intro hrefused
    obtain ⟨o, hfind, holder⟩ := hrefused
    have hmem := mem_order.mp (List.mem_of_find?_eq_some hfind)
    have hhit := List.find?_some hfind
    exact ⟨o, hsource o hmem hhit, holder, (Bool.and_eq_true _ _ ▸ hhit).2⟩
  · intro hclash
    obtain ⟨o, ho, holder, hclash⟩ := hclash
    obtain ⟨hmem, hactive, -⟩ := mem_sources.mp ho
    have hhit : (o.isActive && conflicts tryCreate lower r o) = true := by
      rw [hactive, hclash, Bool.and_self]
    have hsome : ((order rows).find? fun o => o.isActive && conflicts tryCreate lower r o).isSome :=
      List.find?_isSome.mpr ⟨o, mem_order.mpr hmem, hhit⟩
    obtain ⟨first, hfirst⟩ := Option.isSome_iff_exists.mp hsome
    refine ⟨first, hfirst, ?_⟩
    have hfirsthit := List.find?_some hfirst
    exact older_of_find? (pairwise_order hids) hfirst (mem_order.mpr hmem) hhit holder
      (configId_ne_of_conflicts (Bool.and_eq_true _ _ ▸ hfirsthit).2).symm

theorem order_sources_eq_of_perm {rows' : List DataSourceRow} (hperm : rows.Perm rows')
    (hids : (rows.map DataSourceRow.configId).Nodup) :
    order (sources rows') = order (sources rows) :=
  order_eq_of_perm (hperm.filter _) (nodup_sources hids)

/-- The endpoints and the subscriber manager agree on the sources exactly where every active loop
source that conflicts with an older one conflicts with an older one that conflicts with none older
still. -/
theorem resolvesConflicts_iff (tryCreate : String → Option Uri) (lower : String → String)
    (rows : List DataSourceRow) (hids : (rows.map DataSourceRow.configId).Nodup) :
    ResolvesConflicts tryCreate lower rows ↔
      ∀ r ∈ sources rows, ∀ o ∈ sources rows, Older o r → conflicts tryCreate lower r o = true →
        ∃ w ∈ sources rows, Older w r ∧ conflicts tryCreate lower r w = true ∧
          ∀ v ∈ sources rows, Older v w → conflicts tryCreate lower w v = false := by
  have hordered := pairwise_order (nodup_sources hids)
  have hagree := Greedy.winners_eq_unhit_iff (conflicts tryCreate lower) hordered
  unfold Greedy.Unhit at hagree
  simp only [mem_order] at hagree
  rw [← hagree]
  constructor
  · intro h r hr
    rw [← isLoser_iff hids hr, h.agrees r hr, refusedByOlder_iff hids hr]
  · intro h
    refine ⟨?_, ?_, ?_, ?_⟩
    · intro a ha b hb hkepta hkeptb
      rw [isLoser_iff hids ha, not_not] at hkepta
      rw [isLoser_iff hids hb, not_not] at hkeptb
      exact conflicts_of_mem_winners hkepta hkeptb
    · intro r hr hloser
      obtain ⟨w, hw⟩ := Option.isSome_iff_exists.mp (Dict.mem_keys_iff_isSome.mp hloser)
      have hfind : (Greedy.winners (conflicts tryCreate lower) (order (sources rows))).find?
          (conflicts tryCreate lower r) = some w := by
        rw [← winners_eq, ← get?_resolved hordered (mem_order.mpr hr)]
        exact hw
      have hclash := List.find?_some hfind
      have hwinner := List.mem_of_find?_eq_some hfind
      have hsource := mem_order.mp (Greedy.mem_of_mem_winners hwinner)
      obtain ⟨o, ho, holder, hoclash⟩ := Greedy.exists_of_not_mem_winners hordered
        (mem_order.mpr hr) ((isLoser_iff hids hr).mp hloser)
      refine ⟨w, hsource, hw, ?_, ?_, hclash⟩
      · rwa [isLoser_iff hids hsource, not_not]
      · exact older_of_find? (hordered.sublist (Greedy.winners_sublist _)) hfind ho hoclash holder
          (configId_ne_of_conflicts hclash).symm
    · intro rows' hperm
      unfold resolveLosers
      rw [order_sources_eq_of_perm hperm hids]
    · intro r hr
      rw [isLoser_iff hids hr, h r hr, refusedByOlder_iff hids hr]

def readBroker (url : String) : Option Uri :=
  if url = "mqtt://b" then some ⟨"mqtt", "b", -1, true⟩ else none

def feed (id : Guid) (name filter : String) (createdAt : ℤ) : DataSourceRow :=
  { configId := id, profileType := some loopProfile, name := name, connectionUrl := "mqtt://b",
    mqtt := some ⟨some [some filter], none⟩, isActive := true, createdAt := createdAt }

def covered : List DataSourceRow :=
  [feed 3 "New" "x/2" 9, feed 2 "Mid" "x/1" 5, feed 1 "Old" "x/#" 0]

def chain : List DataSourceRow :=
  [feed 1 "A" "plant/a" 0, feed 2 "B" "plant/+" 1, feed 3 "C" "plant/b" 2]

theorem resolvesConflicts_covered : ResolvesConflicts readBroker toLowerInvariant covered :=
  (resolvesConflicts_iff readBroker toLowerInvariant covered (by decide)).mpr (by decide +kernel)

/-- A source that conflicts with a loser alone is kept, and an endpoint refuses it. -/
theorem chain_not_resolved : ¬ ∀ (tryCreate : String → Option Uri) (lower : String → String)
    (rows : List DataSourceRow), (rows.map DataSourceRow.configId).Nodup →
    ResolvesConflicts tryCreate lower rows := by
  intro h
  have hchain := h readBroker toLowerInvariant chain (by decide)
  have hrefused : RefusedByOlder readBroker toLowerInvariant chain (feed 3 "C" "plant/b" 2) :=
    ⟨feed 2 "B" "plant/+" 1, by decide +kernel, by decide⟩
  have hloser := (hchain.agrees (feed 3 "C" "plant/b" 2) (by decide +kernel)).mpr hrefused
  revert hloser
  unfold IsLoser
  decide +kernel

end Agreement

end LoopSourceConflicts

end OpenBridge.Ingestion
