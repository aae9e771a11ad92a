import Mathlib.Data.List.DropRight
import OpenBridge.Ingestion.TopicFilters

/-!
# Ingestion: the endpoints of the data sources

The requests that change `ingestion.data_source_configs`, served one after the other, as far as they
decide what the loop sources receive.  A request that the validation refuses changes nothing and is
left out.
-/

namespace OpenBridge.Ingestion

open OpenBridge.Foundation LoopSourceConflicts

/-- `UpdateDataSourceRequest`: what it does not give is kept. -/
structure UpdateDataSourceRequest where
  profileType : Option String
  name : Option String
  connectionUrl : Option String
  mqtt : Option (Option MqttConfig)

/-- A request, and for a new source the id it is checked under, with the id and the time of its row. -/
inductive Request
  | create (candidateId configId : Guid) (createdAt : ℤ) (profileType : Option String)
      (name connectionUrl : String) (mqtt : Option MqttConfig)
  | update (id : Guid) (request : UpdateDataSourceRequest)
  | activate (id : Guid)
  | deactivate (id : Guid)
  | delete (id : Guid)

inductive Reply
  | ok
  | notFound
  | conflict (error field : String)

def conflictMessage (other : DataSourceRow) : String :=
  "overlaps active source '" ++ other.name ++ "' (" ++ Guid.text other.configId ++ ")"

/-- `ListAsync(activeOnly: true)`. -/
def listActive (rows : List DataSourceRow) : List DataSourceRow := rows.filter DataSourceRow.isActive

def updateRow (rows : List DataSourceRow) (id : Guid) (f : DataSourceRow → DataSourceRow) :
    List DataSourceRow :=
  rows.map fun r => if r.configId = id then f r else r

def updated (r : UpdateDataSourceRequest) (existing : DataSourceRow) : DataSourceRow :=
  { existing with
    profileType := r.profileType.or existing.profileType
    name := r.name.getD existing.name
    connectionUrl := r.connectionUrl.getD existing.connectionUrl
    mqtt := r.mqtt.getD existing.mqtt }

/-- `mergedRow`, which the check reads; its address is trimmed, that of the stored row is not. -/
def mergedRow (r : UpdateDataSourceRequest) (existing : DataSourceRow) : DataSourceRow :=
  { updated r existing with connectionUrl := trim (updated r existing).connectionUrl }

section Platform

variable (tryCreate : String → Option Uri) (lower : String → String)

def feedChanged (before after : DataSourceRow) : Bool :=
  before.profileType ≠ after.profileType ∨
    normalizeEndpoint tryCreate lower before.connectionUrl ≠
      normalizeEndpoint tryCreate lower after.connectionUrl ∨
    clientId before ≠ clientId after ∨ topics before ≠ topics after

/-- A row is written unless a source is found that it conflicts with. -/
def guarded (rows written : List DataSourceRow) (clash : Option DataSourceRow) :
    List DataSourceRow × Reply :=
  match clash with
  | some clash => (rows, .conflict (conflictMessage clash) "topics")
  | none => (written, .ok)

def withRow (rows : List DataSourceRow) (id : Guid)
    (f : DataSourceRow → List DataSourceRow × Reply) : List DataSourceRow × Reply :=
  match rows.find? fun r => r.configId = id with
  | none => (rows, .notFound)
  | some row => f row

def serve (rows : List DataSourceRow) : Request → List DataSourceRow × Reply
  | .create candidateId configId createdAt profileType name connectionUrl mqtt =>
      let row : DataSourceRow :=
        ⟨configId, profileType, trim name, trim connectionUrl, mqtt, true, createdAt⟩
      guarded rows (rows ++ [row])
        (findConflict tryCreate lower { row with configId := candidateId } (listActive rows))
  | .update id request => withRow rows id fun existing =>
      guarded rows (updateRow rows id (updated request))
        (if existing.isActive ∧ feedChanged tryCreate lower existing (mergedRow request existing)
          then findConflict tryCreate lower (mergedRow request existing) (listActive rows) else none)
  | .activate id => withRow rows id fun current =>
      guarded rows (updateRow rows id fun r => { r with isActive := true })
        (if current.isActive then none else findConflict tryCreate lower current (listActive rows))
  | .deactivate id => withRow rows id fun _ =>
      (updateRow rows id fun r => { r with isActive := false }, .ok)
  | .delete id => withRow rows id fun _ => (rows.filter fun r => r.configId ≠ id, .ok)

/-- The ids of a new source are drawn: no row has one, or spells the client id that is derived of it. -/
def Drawn (rows : List DataSourceRow) : Request → Prop
  | .create candidateId configId .. =>
      ∀ r ∈ rows, r.configId ≠ candidateId ∧ r.configId ≠ configId ∧
        clientId r ≠ "ingestion-" ++ Guid.text configId
  | _ => True

/-- The tables that requests lead to, from an empty one. -/
inductive Served : List DataSourceRow → Prop
  | empty : Served []
  | next {rows : List DataSourceRow} (h : Served rows) {request : Request}
      (hdrawn : Drawn rows request) : Served (serve tryCreate lower rows request).1

/-- No two active loop sources conflict. -/
structure Undisturbed (rows : List DataSourceRow) : Prop where
  ids : (rows.map DataSourceRow.configId).Nodup
  free : ∀ a ∈ sources rows, ∀ b ∈ sources rows, conflicts tryCreate lower a b = false

end Platform

variable {tryCreate : String → Option Uri} {lower : String → String} {rows : List DataSourceRow}
  {a b o : DataSourceRow} {id : Guid}

/-! ## What a conflict depends on -/

theorem conflicts_congr (hid : a.configId = b.configId) (htype : a.profileType = b.profileType)
    (hendpoint : normalizeEndpoint tryCreate lower a.connectionUrl =
      normalizeEndpoint tryCreate lower b.connectionUrl)
    (hclient : clientId a = clientId b) (htopics : topics a = topics b) :
    conflicts tryCreate lower a o = conflicts tryCreate lower b o := by
  unfold conflicts sameEndpoint isLoop
  rw [hid, htype, hendpoint, hclient, htopics]

theorem trim_trim (s : String) : trim (trim s) = trim s := by
  unfold trim trimWhere
  rw [String.toList_ofList]
  refine congrArg String.ofList ?_
  change List.rdropWhile isWhiteSpace (List.dropWhile isWhiteSpace
    (List.rdropWhile isWhiteSpace (List.dropWhile isWhiteSpace s.toList))) =
      List.rdropWhile isWhiteSpace (List.dropWhile isWhiteSpace s.toList)
  generalize hl : List.dropWhile isWhiteSpace s.toList = l
  have hfirst : ∀ c cs, List.rdropWhile isWhiteSpace l = c :: cs → isWhiteSpace c = false := by
    intro c cs hcs
    obtain ⟨rest, hrest⟩ := List.rdropWhile_prefix isWhiteSpace (l := l)
    rw [hcs, List.cons_append] at hrest
    have hhead := List.head?_dropWhile_not isWhiteSpace s.toList
    rw [hl, ← hrest] at hhead
    exact Bool.eq_false_iff.mpr (by simpa using hhead)
  have hdrop : List.dropWhile isWhiteSpace (List.rdropWhile isWhiteSpace l) =
      List.rdropWhile isWhiteSpace l := by
    cases hcs : List.rdropWhile isWhiteSpace l with
    | nil => rfl
    | cons c cs => rw [List.dropWhile_cons_of_neg (by rw [hfirst c cs hcs]; exact Bool.false_ne_true)]
  rw [hdrop, List.rdropWhile_idempotent]

theorem conflicts_mergedRow (r : UpdateDataSourceRequest) (existing : DataSourceRow) :
    conflicts tryCreate lower (mergedRow r existing) o =
      conflicts tryCreate lower (updated r existing) o := by
  refine conflicts_congr rfl rfl ?_ rfl rfl
  unfold normalizeEndpoint blank mergedRow
  simp only [trim_trim]

theorem not_conflicts_of_configId_eq (h : a.configId = b.configId) :
    conflicts tryCreate lower a b = false :=
  Bool.eq_false_iff.mpr fun hclash => configId_ne_of_conflicts hclash h

theorem isLoop_of_conflicts (h : conflicts tryCreate lower a b = true) :
    isLoop a = true ∧ isLoop b = true := by
  unfold conflicts at h
  rw [decide_eq_true_eq] at h
  exact ⟨h.2.1, h.2.2.1⟩

theorem isLoop_congr (h : a.profileType = b.profileType) : isLoop b = isLoop a := by
  unfold isLoop
  rw [h]

theorem same_of_not_feedChanged (h : feedChanged tryCreate lower a b = false) :
    a.profileType = b.profileType ∧ normalizeEndpoint tryCreate lower a.connectionUrl =
      normalizeEndpoint tryCreate lower b.connectionUrl ∧ clientId a = clientId b ∧
        topics a = topics b := by
  unfold feedChanged at h
  simpa only [decide_eq_false_iff_not, not_or, not_not] using h

/-- A client id is derived of the row's id, or does not depend on it. -/
theorem clientId_cases (r : DataSourceRow) : clientId r = "ingestion-" ++ Guid.text r.configId ∨
    ∀ id, clientId { r with configId := id } = clientId r := by
  unfold clientId
  dsimp only
  split
  · exact .inl rfl
  · split
    · exact .inl rfl
    · exact .inr fun _ => rfl

/-- A new source is checked under another id than it is stored under. -/
theorem not_conflicts_stored {candidateId : Guid}
    (h : conflicts tryCreate lower { a with configId := candidateId } o = false)
    (hcandidate : o.configId ≠ candidateId)
    (hclient : clientId o ≠ "ingestion-" ++ Guid.text a.configId) :
    conflicts tryCreate lower a o = false := by
  unfold conflicts at h ⊢
  rw [decide_eq_false_iff_not] at h ⊢
  rintro ⟨-, ha, ho, hendpoint, hclash⟩
  refine h ⟨hcandidate.symm, ha, ho, hendpoint, hclash.imp_right fun heq => ?_⟩
  rcases clientId_cases a with hderived | hkept
  · exact absurd (heq.symm.trans hderived) hclient
  · exact (hkept candidateId).trans heq

/-- The check passes only a source that conflicts with no active one. -/
theorem free_of_findConflict (h : findConflict tryCreate lower a (listActive rows) = none) :
    ∀ o ∈ sources rows, conflicts tryCreate lower a o = false := by
  intro o ho
  by_contra hclash
  rw [Bool.not_eq_false] at hclash
  unfold findConflict at h
  rw [if_pos (isLoop_of_conflicts hclash).1, List.find?_eq_none] at h
  obtain ⟨hmem, hactive, -⟩ := mem_sources.mp ho
  refine h o (mem_order.mpr (List.mem_filter.mpr ⟨hmem, hactive⟩)) ?_
  rw [hactive, hclash, Bool.and_self]

/-! ## What a request keeps -/

theorem Undisturbed.of_sublist {rows' : List DataSourceRow} (h : Undisturbed tryCreate lower rows)
    (hsub : rows'.Sublist rows) : Undisturbed tryCreate lower rows' where
  ids := h.ids.sublist (hsub.map _)
  free a ha b hb := h.free a ((hsub.filter _).subset ha) b ((hsub.filter _).subset hb)

/-- A source that is new or changed conflicts with none of the others. -/
theorem Undisturbed.change {rows' : List DataSourceRow} (h : Undisturbed tryCreate lower rows)
    (id : Guid) (hids : (rows'.map DataSourceRow.configId).Nodup)
    (hcases : ∀ x ∈ sources rows',
      (x.configId = id ∧ ∀ o ∈ sources rows, o.configId ≠ id → conflicts tryCreate lower x o = false) ∨
        x.configId ≠ id ∧ x ∈ sources rows) : Undisturbed tryCreate lower rows' where
  ids := hids
  free x hx y hy := by
    rcases hcases x hx with ⟨hxid, hxfree⟩ | ⟨hxid, hx⟩ <;>
      rcases hcases y hy with ⟨hyid, hyfree⟩ | ⟨hyid, hy⟩
    · exact not_conflicts_of_configId_eq (hxid.trans hyid.symm)
    · exact hxfree y hy hyid
    · rw [conflicts_comm]
      exact hyfree x hx hxid
    · exact h.free x hx y hy

theorem Undisturbed.concat (h : Undisturbed tryCreate lower rows)
    (hid : ∀ r ∈ rows, r.configId ≠ a.configId)
    (hfree : ∀ o ∈ sources rows, conflicts tryCreate lower a o = false) :
    Undisturbed tryCreate lower (rows ++ [a]) := by
  refine h.change a.configId ?_ fun x hx => ?_
  · rw [List.map_append, List.map_cons, List.map_nil]
    refine List.nodup_append'.mpr ⟨h.ids, List.nodup_singleton _, ?_⟩
    rw [List.disjoint_singleton]
    intro hmem
    obtain ⟨r, hr, heq⟩ := List.mem_map.mp hmem
    exact hid r hr heq
  · obtain ⟨hx, hsource⟩ := mem_sources.mp hx
    rcases List.mem_append.mp hx with hx | hx
    · exact .inr ⟨hid x hx, mem_sources.mpr ⟨hx, hsource⟩⟩
    · obtain rfl := List.mem_singleton.mp hx
      exact .inl ⟨rfl, fun o ho _ => hfree o ho⟩

theorem Undisturbed.updateRow {f : DataSourceRow → DataSourceRow}
    (h : Undisturbed tryCreate lower rows) (hid : ∀ r, (f r).configId = r.configId)
    (hfree : ∀ r ∈ rows, r.configId = id → (f r).isActive = true → isLoop (f r) = true →
      ∀ o ∈ sources rows, o.configId ≠ id → conflicts tryCreate lower (f r) o = false) :
    Undisturbed tryCreate lower (updateRow rows id f) := by
  refine h.change id ?_ fun x hx => ?_
  · have hids : (OpenBridge.Ingestion.updateRow rows id f).map DataSourceRow.configId =
        rows.map DataSourceRow.configId := by
      unfold OpenBridge.Ingestion.updateRow
      rw [List.map_map]
      refine List.map_congr_left fun r _ => ?_
      simp only [Function.comp_apply]
      split
      · exact hid r
      · rfl
    rw [hids]
    exact h.ids
  · obtain ⟨hx, hactive, hloop⟩ := mem_sources.mp hx
    obtain ⟨r, hr, rfl⟩ := List.mem_map.mp hx
    by_cases heq : r.configId = id
    · rw [if_pos heq] at hactive hloop ⊢
      exact .inl ⟨(hid r).trans heq, hfree r hr heq hactive hloop⟩
    · rw [if_neg heq] at hactive hloop ⊢
      exact .inr ⟨heq, mem_sources.mpr ⟨hr, hactive, hloop⟩⟩

theorem Undisturbed.guarded {written : List DataSourceRow} {clash : Option DataSourceRow}
    (h : Undisturbed tryCreate lower rows)
    (hwritten : clash = none → Undisturbed tryCreate lower written) :
    Undisturbed tryCreate lower (guarded rows written clash).1 := by
  cases clash with
  | some clash => exact h
  | none => exact hwritten rfl

theorem Undisturbed.withRow {f : DataSourceRow → List DataSourceRow × Reply}
    (h : Undisturbed tryCreate lower rows)
    (hf : ∀ existing, (∀ r ∈ rows, r.configId = id → r = existing) →
      Undisturbed tryCreate lower (f existing).1) :
    Undisturbed tryCreate lower (withRow rows id f).1 := by
  unfold OpenBridge.Ingestion.withRow
  split
  · exact h
  · rename_i existing hget
    have hfound := List.find?_some hget
    have hexisting : existing.configId = id := of_decide_eq_true hfound
    exact hf existing fun r hr hid => List.inj_on_of_nodup_map h.ids hr
      (List.mem_of_find?_eq_some hget) (hid.trans hexisting.symm)

theorem Undisturbed.serve (h : Undisturbed tryCreate lower rows) {request : Request}
    (hdrawn : Drawn rows request) :
    Undisturbed tryCreate lower (serve tryCreate lower rows request).1 := by
  cases request with
  | create candidateId configId createdAt profileType name connectionUrl mqtt =>
    refine h.guarded fun hcheck => h.concat (fun r hr => (hdrawn r hr).2.1) fun o ho => ?_
    obtain ⟨hcandidate, -, hclient⟩ := hdrawn o (mem_sources.mp ho).1
    exact not_conflicts_stored (free_of_findConflict hcheck o ho) hcandidate hclient
  | update id request =>
    refine h.withRow fun existing hexisting => h.guarded fun hcheck =>
      h.updateRow (fun _ => rfl) fun r hr hid hactive hloop o ho _ => ?_
    obtain rfl := hexisting r hr hid
    rw [← conflicts_mergedRow]
    split at hcheck
    · exact free_of_findConflict hcheck o ho
    · rename_i hkept
      have hactive : r.isActive = true := hactive
      have hunchanged : feedChanged tryCreate lower r (mergedRow request r) = false :=
        Bool.eq_false_iff.mpr fun hchanged => hkept ⟨hactive, hchanged⟩
      obtain ⟨htype, hendpoint, hclient, htopics⟩ := same_of_not_feedChanged hunchanged
      have hloop : isLoop r = true := (isLoop_congr htype).symm.trans hloop
      have hsame : conflicts tryCreate lower r o = conflicts tryCreate lower (mergedRow request r) o :=
        conflicts_congr rfl htype hendpoint hclient htopics
      rw [← hsame]
      exact h.free r (mem_sources.mpr ⟨hr, hactive, hloop⟩) o ho
  | activate id =>
    refine h.withRow fun current hcurrent => h.guarded fun hcheck =>
      h.updateRow (fun _ => rfl) fun r hr hid _ hloop o ho _ => ?_
    obtain rfl := hcurrent r hr hid
    have hsame : conflicts tryCreate lower { r with isActive := true } o =
        conflicts tryCreate lower r o := conflicts_congr rfl rfl rfl rfl rfl
    rw [hsame]
    split at hcheck
    · rename_i hactive
      exact h.free r (mem_sources.mpr ⟨hr, hactive, hloop⟩) o ho
    · exact free_of_findConflict hcheck o ho
  | deactivate id =>
    exact h.withRow fun _ _ =>
      h.updateRow (fun _ => rfl) fun r _ _ hactive => absurd hactive Bool.false_ne_true
  | delete id => exact h.withRow fun _ _ => h.of_sublist List.filter_sublist

/-! ## Nothing is parked -/

theorem get?_resolveLosers (h : Undisturbed tryCreate lower rows) (id : Guid) :
    (resolveLosers tryCreate lower rows).get? id = none := by
  rw [Dict.get?_eq_none_iff]
  intro hkey
  obtain ⟨r, hr, rfl⟩ := keys_resolved_subset hkey
  have hget : (resolveLosers tryCreate lower rows).get? r.configId = _ :=
    get?_resolved (pairwise_order (nodup_sources h.ids)) hr
  rw [winners_eq] at hget
  have hnone : (Greedy.winners (conflicts tryCreate lower) (order (sources rows))).find?
      (conflicts tryCreate lower r) = none :=
    List.find?_eq_none.mpr fun w hw => by
      rw [h.free r (mem_order.mp hr) w (mem_order.mp (Greedy.mem_of_mem_winners hw))]
      exact Bool.false_ne_true
  exact Dict.get?_eq_none_iff.mp (hget.trans hnone) hkey

/-- The subscriber manager parks no source, and no topic of a broker reaches two of them. -/
structure FeedsApart (tryCreate : String → Option Uri) (lower : String → String)
    (rows : List DataSourceRow) : Prop where
  parked : ∀ id, (resolveLosers tryCreate lower rows).get? id = none
  clientIds : ∀ a ∈ sources rows, ∀ b ∈ sources rows, a.configId ≠ b.configId →
    sameEndpoint tryCreate lower a b = true → clientId a ≠ clientId b
  delivered : ∀ a ∈ sources rows, ∀ b ∈ sources rows, a.configId ≠ b.configId →
    sameEndpoint tryCreate lower a b = true → ∀ f ∈ topics a, ∀ g ∈ topics b, ∀ topic,
      ¬ (FilterMatches f topic ∧ FilterMatches g topic)

/-- **Requests served one after the other never make two feeds of one.** -/
theorem feedsApart_of_served (h : Served tryCreate lower rows) : FeedsApart tryCreate lower rows := by
  have hrun : Undisturbed tryCreate lower rows := by
    induction h with
    | empty => exact ⟨List.nodup_nil, fun a ha => absurd ha List.not_mem_nil⟩
    | next _ hdrawn ih => exact ih.serve hdrawn
  have hapart : ∀ a ∈ sources rows, ∀ b ∈ sources rows, a.configId ≠ b.configId →
      sameEndpoint tryCreate lower a b = true →
        ¬ (topicsOverlap (topics a) (topics b) = true ∨ clientId a = clientId b) := by
    intro a ha b hb hne hendpoint hclash
    have hfree := hrun.free a ha b hb
    unfold conflicts at hfree
    rw [decide_eq_false_iff_not] at hfree
    exact hfree ⟨hne, (mem_sources.mp ha).2.2, (mem_sources.mp hb).2.2, hendpoint, hclash⟩
  refine ⟨get?_resolveLosers hrun, fun a ha b hb hne hendpoint hclient =>
    hapart a ha b hb hne hendpoint (.inr hclient), ?_⟩
  intro a ha b hb hne hendpoint f hf g hg topic hmatch
  exact hapart a ha b hb hne hendpoint (.inl (List.any_eq_true.mpr ⟨f, hf,
    List.any_eq_true.mpr ⟨g, hg, levelsOverlap_of_match hmatch.1 hmatch.2⟩⟩))

/-- Two sources on one broker, one after the other. -/
private def newSource (candidateId configId : Guid) (filter : String) : Request :=
  .create candidateId configId 0 (some loopProfile) "Plant" "mqtt://b" (some ⟨some [some filter], none⟩)

private def twoSources : List DataSourceRow :=
  let first := (serve readBroker toLowerInvariant [] (newSource 11 1 "plant/a")).1
  (serve readBroker toLowerInvariant first (newSource 12 2 "plant/b")).1

theorem feedsApart_twoSources : FeedsApart readBroker toLowerInvariant twoSources := by
  have hfirst : Drawn [] (newSource 11 1 "plant/a") := fun r hr => absurd hr List.not_mem_nil
  have hsecond : Drawn (serve readBroker toLowerInvariant [] (newSource 11 1 "plant/a")).1
      (newSource 12 2 "plant/b") := by
    unfold newSource Drawn
    decide +kernel
  exact feedsApart_of_served ((Served.empty.next hfirst).next hsecond)

/-- The sources are both there; a third one that takes topics of one of them is refused. -/
example : twoSources.length = 2 ∧
    (serve readBroker toLowerInvariant twoSources (newSource 13 3 "plant/+")).1 = twoSources := by
  decide +kernel

end OpenBridge.Ingestion
