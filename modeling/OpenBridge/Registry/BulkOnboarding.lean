import OpenBridge.Registry.BulkCollisions

/-!
# Registry: bulk onboarding is onboarding one by one

A batch leaves the rows and reports the outcomes of its requests in order, apart from the
engineering column.
-/

namespace OpenBridge.Registry

open OpenBridge.Foundation

def RegistryRow.withoutEngineering (x : RegistryRow) : RegistryRow := { x with engineering := .null }

def Tables.withoutEngineering (s : Tables) : Tables :=
  { s with registry := s.registry.map RegistryRow.withoutEngineering }

namespace CpmLoopRegistryService

variable {p : Platform} {r : CpmLoopActivateRequest} {rule : EngineeringRule}

/-! ## The rows that are left to collide -/

def Refusals (outcomes : Dict String CpmBulkActivateItem) : Prop :=
  ∀ id item, outcomes.get? id = some item → item.ok = false

theorem Refusals.reject {outcomes : Dict String CpmBulkActivateItem} (h : Refusals outcomes)
    (loopId code message : String) : Refusals (reject outcomes loopId code message) := by
  intro id item hitem
  unfold CpmLoopRegistryService.reject at hitem
  rw [Dict.get?_set] at hitem
  split at hitem
  · obtain rfl := Option.some.inj hitem
    rfl
  · exact h id item hitem

structure Left (p : Platform) (rows : List CpmLoopActivateRequest) (v : Sieve) : Prop where
  sublist : v.rows.Sublist rows
  good : v.rows.filter (isGood p) = rows.filter (isGood p)
  refusals : Refusals v.outcomes

theorem Left.skip {rows : List CpmLoopActivateRequest} {v : Sieve} (h : Left p rows v)
    (hgood : isGood p r = false) {outcomes : Dict String CpmBulkActivateItem}
    (houtcomes : Refusals outcomes) : Left p (rows ++ [r]) { v with outcomes := outcomes } := by
  refine ⟨h.sublist.trans (List.sublist_append_left _ _), ?_, houtcomes⟩
  rw [List.filter_append, List.filter_cons_of_neg (Bool.eq_false_iff.mp hgood), List.filter_nil,
    List.append_nil]
  exact h.good

theorem Left.pass {rows : List CpmLoopActivateRequest} {v : Sieve} (h : Left p rows v)
    (r : CpmLoopActivateRequest) : Left p (rows ++ [r]) { v with rows := v.rows ++ [r] } := by
  refine ⟨h.sublist.append (List.Sublist.refl _), ?_, h.refusals⟩
  dsimp only
  rw [List.filter_append, List.filter_append, h.good]

theorem left_validateRows {requests : List CpmLoopActivateRequest}
    (halike : ∀ r ∈ requests, ∀ r' ∈ requests, r.loopId = r'.loopId → isGood p r = isGood p r') :
    Left p requests (validateRows p requests) ∧
      (∀ r ∈ (validateRows p requests).rows, isValid p r = true) ∧
      ∀ id, (validateRows p requests).outcomes.contains id = true →
        ∃ q ∈ requests, q.loopId = id ∧ isGood p q = false := by
  induction requests using List.reverseRecOn with
  | nil => exact ⟨⟨List.Sublist.refl _, rfl, nofun⟩, List.forall_mem_nil _, nofun⟩
  | append_singleton requests r ih =>
    obtain ⟨hleft, hvalid, hrefused⟩ := ih fun q hq q' hq' =>
      halike q (List.mem_append_left _ hq) q' (List.mem_append_left _ hq')
    have hrefused' : ∀ id, (validateRows p requests).outcomes.contains id = true →
        ∃ q ∈ requests ++ [r], q.loopId = id ∧ isGood p q = false := by
      intro id hid
      obtain ⟨q, hq, hrest⟩ := hrefused id hid
      exact ⟨q, List.mem_append_left _ hq, hrest⟩
    have hfold : validateRows p (requests ++ [r]) = validateRow p (validateRows p requests) r := by
      unfold validateRows
      rw [List.foldl_append, List.foldl_cons, List.foldl_nil]
    rw [hfold]
    unfold validateRow
    split
    · rename_i hcontains
      obtain ⟨q, hq, hqid, hbad⟩ := hrefused r.loopId hcontains
      have hgood : isGood p r = false := by
        rw [← halike q (List.mem_append_left _ hq) r (List.mem_append_right _ List.mem_cons_self) hqid]
        exact hbad
      exact ⟨hleft.skip hgood hleft.refusals, hvalid, hrefused'⟩
    · split
      · rename_i hvalidate
        have hown : isValid p r = true := by
          unfold isValid
          rw [hvalidate]
          rfl
        refine ⟨hleft.pass r, ?_, hrefused'⟩
        exact List.forall_mem_append.mpr ⟨hvalid, List.forall_mem_singleton.mpr hown⟩
      · rename_i message hvalidate
        have hgood : isGood p r = false := by
          refine Bool.eq_false_iff.mpr fun hgood => ?_
          have hown := validate_of_isValid (of_decide_eq_true hgood).1
          rw [hvalidate] at hown
          cases hown
        refine ⟨hleft.skip hgood (hleft.refusals.reject _ _ _), hvalid, fun id hid => ?_⟩
        unfold reject Dict.contains at hid
        rw [Dict.get?_set] at hid
        split at hid
        · rename_i heq
          exact ⟨r, List.mem_append_right _ List.mem_cons_self, heq.symm, hgood⟩
        · exact hrefused' id hid

def locationFound (p : Platform) (r : CpmLoopActivateRequest) : Option String :=
  match p.assets with
  | none => some
      "The location could not be verified against the asset model (asset-model did not answer)."
  | some node => locationError node r

theorem get?_foldl_set {ν : Type} (f : CpmLoopActivateRequest → ν)
    (rows : List CpmLoopActivateRequest) (d : Dict String ν) {id : String}
    (hid : id ∈ rows.map CpmLoopActivateRequest.loopId) :
    ∃ q ∈ rows, q.loopId = id ∧ (rows.foldl (fun d r => d.set r.loopId (f r)) d).get? id = some (f q) := by
  induction rows using List.reverseRecOn with
  | nil => exact absurd hid List.not_mem_nil
  | append_singleton rows r ih =>
    rw [List.foldl_append, List.foldl_cons, List.foldl_nil, Dict.get?_set]
    split
    · rename_i heq
      exact ⟨r, List.mem_append_right _ List.mem_cons_self, heq.symm, rfl⟩
    · rename_i hne
      rw [List.map_append, List.mem_append, List.map_singleton, List.mem_singleton] at hid
      obtain ⟨q, hq, hrest⟩ := ih (hid.resolve_right hne)
      exact ⟨q, List.mem_append_left _ hq, hrest⟩

theorem get?_validateLocationsAsync (rows : List CpmLoopActivateRequest)
    (hvalid : ∀ r ∈ rows, isValid p r = true) (hr : r ∈ rows) :
    ∃ q ∈ rows, q.loopId = r.loopId ∧
      ((validateLocationsAsync p rows).get? r.loopId).join = locationFound p q := by
  have hsite : ∀ q ∈ rows, trim q.site ≠ "" := fun q hq =>
    trim_ne_empty (of_validate (validate_of_isValid (hvalid q hq))).2.2
  have hnotall : ¬ (rows.all fun r => decide (trim r.site = "")) = true := by
    intro hall
    exact hsite r hr (of_decide_eq_true (List.all_eq_true.mp hall r hr))
  have hid : r.loopId ∈ rows.map CpmLoopActivateRequest.loopId := List.mem_map_of_mem hr
  unfold validateLocationsAsync locationFound
  dsimp only
  rw [if_neg hnotall]
  cases p.assets with
  | none =>
    obtain ⟨q, hq, hqid, hget⟩ := get?_foldl_set (fun _ => some
      "The location could not be verified against the asset model (asset-model did not answer).") rows
      (rows.foldl (fun d r => d.set r.loopId none) Dict.empty) hid
    exact ⟨q, hq, hqid, congrArg Option.join hget⟩
  | some node =>
    dsimp only
    have hsited : ∀ d : Dict String (Option String),
        rows.foldl (fun d r => if trim r.site = "" then d else d.set r.loopId (locationError node r)) d =
          rows.foldl (fun d r => d.set r.loopId (locationError node r)) d :=
      fun d => List.foldl_ext _ _ _ fun d q hq => if_neg (hsite q hq)
    rw [hsited]
    obtain ⟨q, hq, hqid, hget⟩ := get?_foldl_set (locationError node) rows
      (rows.foldl (fun d r => d.set r.loopId none) Dict.empty) hid
    exact ⟨q, hq, hqid, congrArg Option.join hget⟩

theorem locationErrorOf_eq (hvalid : isValid p r = true) : locationErrorOf p r = locationFound p r := by
  obtain ⟨q, hq, -, hget⟩ := get?_validateLocationsAsync [r]
    (List.forall_mem_singleton.mpr hvalid) List.mem_cons_self
  rw [List.mem_singleton.mp hq] at hget
  exact hget

theorem left_locateRows {v : Sieve} (hvalid : ∀ r ∈ v.rows, isValid p r = true)
    (hrefusals : Refusals v.outcomes)
    (halike : ∀ r ∈ v.rows, ∀ r' ∈ v.rows, r.loopId = r'.loopId →
      (locationErrorOf p r).isNone = (locationErrorOf p r').isNone) :
    Left p v.rows (locateRows p v) ∧ ∀ r ∈ (locateRows p v).rows, isLocated p r = true := by
  have hfound : ∀ r ∈ v.rows, ((validateLocationsAsync p v.rows).get? r.loopId).join.isNone =
      (locationErrorOf p r).isNone := by
    intro r hr
    obtain ⟨q, hq, hqid, hget⟩ := get?_validateLocationsAsync v.rows hvalid hr
    rw [hget, ← locationErrorOf_eq (hvalid q hq)]
    exact halike q hq r hr hqid
  unfold locateRows
  generalize validateLocationsAsync p v.rows = errors at hfound
  have hfold : ∀ rows : List CpmLoopActivateRequest, (∀ r ∈ rows, r ∈ v.rows) →
      Left p rows (rows.foldl (locateRow errors) ⟨v.outcomes, []⟩) ∧
        ∀ r ∈ (rows.foldl (locateRow errors) ⟨v.outcomes, []⟩).rows, isLocated p r = true := by
    intro rows
    induction rows using List.reverseRecOn with
    | nil => exact fun _ => ⟨⟨List.Sublist.refl _, rfl, hrefusals⟩, List.forall_mem_nil _⟩
    | append_singleton rows r ih =>
      intro hrows
      obtain ⟨hleft, hlocated⟩ := ih fun q hq => hrows q (List.mem_append_left _ hq)
      have hown := hfound r (hrows r (List.mem_append_right _ List.mem_cons_self))
      rw [List.foldl_append, List.foldl_cons, List.foldl_nil]
      have hpass : isLocated p r = true → Left p (rows ++ [r])
            { rows.foldl (locateRow errors) ⟨v.outcomes, []⟩ with
              rows := (rows.foldl (locateRow errors) ⟨v.outcomes, []⟩).rows ++ [r] } ∧
          ∀ q ∈ (rows.foldl (locateRow errors) ⟨v.outcomes, []⟩).rows ++ [r], isLocated p q = true :=
        fun hloc => ⟨hleft.pass r,
          List.forall_mem_append.mpr ⟨hlocated, List.forall_mem_singleton.mpr hloc⟩⟩
      generalize rows.foldl (locateRow errors) ⟨v.outcomes, []⟩ = v' at hleft hlocated hpass ⊢
      unfold locateRow
      cases herr : (errors.get? r.loopId).join with
      | none =>
        rw [herr] at hown
        exact hpass (decide_eq_true (.inl hown.symm))
      | some err =>
        rw [herr] at hown
        cases hallow : r.allowUnmodelledLocation with
        | true => exact hpass (decide_eq_true (.inr hallow))
        | false =>
          have hgood : isGood p r = false := by
            refine Bool.eq_false_iff.mpr fun hgood => ?_
            rcases of_decide_eq_true (of_decide_eq_true hgood).2.1 with hnone | hallowed
            · exact Bool.false_ne_true (hown.trans hnone)
            · exact Bool.false_ne_true (hallow.symm.trans hallowed)
          exact ⟨hleft.skip hgood (hleft.refusals.reject _ _ _), hlocated⟩
  exact hfold v.rows fun _ hr => hr

/-! ## The requests one by one -/

structure Running (p : Platform) (among : List String) (t : Tables) : Prop where
  stored : Stored p t.registry
  within : ∀ id ∈ idsOf t.registry, id ∈ among
  apart : ∀ a ∈ idsOf t.registry, ∀ b ∈ idsOf t.registry, ¬ Twins p a b

theorem Twins.symm {a b : String} (h : Twins p a b) : Twins p b a :=
  ⟨Ne.symm h.1, h.2.imp Eq.symm Eq.symm⟩

section Requests

variable {among : List String} {t : Tables}

theorem Running.step (h : Running p among t)
    (hcasing : ∀ a ∈ among, ∀ b ∈ among, (p.lower a = p.lower b ↔
      p.toLowerInvariant a = p.toLowerInvariant b))
    (hid : r.loopId ∈ among) (hkeeps : isGood p r = true → KeepsStored t r) :
    Running p among (activateStep p mergeEngineering t r).1 ∧
      (∀ id ∈ idsOf t.registry, id ∈ idsOf (activateStep p mergeEngineering t r).1.registry) ∧
      (((activateStep p mergeEngineering t r).2 = [true] ∧ isGood p r = true ∧
          r.loopId ∈ idsOf (activateStep p mergeEngineering t r).1.registry) ∨
        ((activateStep p mergeEngineering t r).2 = [false] ∧
          (isGood p r = true → ∃ y ∈ idsOf t.registry, Twins p y r.loopId))) := by
  cases hgood : isGood p r with
  | false =>
    rw [activateStep_of_not_good hgood]
    exact ⟨h, fun _ hmem => hmem, .inr ⟨rfl, nofun⟩⟩
  | true =>
    by_cases hcollides : Collides p t.registry r.loopId
    · rw [activateStep_of_collides hcollides]
      exact ⟨h, fun _ hmem => hmem, .inr ⟨rfl, fun _ => (collides_iff hcasing h.within hid).mp hcollides⟩⟩
    · obtain ⟨t', hwrite, hstep⟩ := activateStep_of_good h.stored hgood (hkeeps hgood) hcollides
      have hvalidate := validate_of_isValid (of_decide_eq_true hgood).1
      have hown := (write_eq_writeChunk h.stored hvalidate (hkeeps hgood)).trans hwrite
      obtain ⟨hstored, hids⟩ := write_spec h.stored hvalidate hown
      have hfree : ∀ y ∈ idsOf t.registry, ¬ Twins p y r.loopId := fun y hy htwins =>
        hcollides ((collides_iff hcasing h.within hid).mpr ⟨y, hy, htwins⟩)
      rw [hstep]
      refine ⟨⟨hstored, fun id hmem => ?_, fun a ha b hb htwins => ?_⟩,
        fun id hmem => (hids id).mpr (.inr hmem), .inl ⟨rfl, rfl, (hids _).mpr (.inl rfl)⟩⟩
      · rcases (hids id).mp hmem with rfl | hmem
        · exact hid
        · exact h.within id hmem
      · rcases (hids a).mp ha with rfl | ha
        · rcases (hids b).mp hb with rfl | hb
          · exact htwins.1 rfl
          · exact hfree b hb htwins.symm
        · rcases (hids b).mp hb with rfl | hb
          · exact hfree a ha htwins
          · exact h.apart a ha b hb htwins

theorem Running.outputs (h : Running p among t)
    (hcasing : ∀ a ∈ among, ∀ b ∈ among, (p.lower a = p.lower b ↔
      p.toLowerInvariant a = p.toLowerInvariant b))
    {requests : List CpmLoopActivateRequest} (hids : ∀ r ∈ requests, r.loopId ∈ among)
    (hkeeps : Machine.Always (activateStep p mergeEngineering)
      (fun t r => isGood p r = true → KeepsStored t r) t requests) :
    Running p among (Machine.stateAfter (activateStep p mergeEngineering) t requests) ∧
      (∀ id ∈ idsOf t.registry,
        id ∈ idsOf (Machine.stateAfter (activateStep p mergeEngineering) t requests).registry) ∧
      Machine.outputs (activateStep p mergeEngineering) t requests = requests.map fun r =>
        decide (isGood p r = true ∧ r.loopId ∈
          idsOf (Machine.stateAfter (activateStep p mergeEngineering) t requests).registry) := by
  induction requests generalizing t with
  | nil => exact ⟨h, fun _ hmem => hmem, rfl⟩
  | cons r requests ih =>
    obtain ⟨hrunning, hmono, hflag⟩ := h.step hcasing (hids r List.mem_cons_self) hkeeps.1
    obtain ⟨hlast, hmono', houtputs⟩ :=
      ih hrunning (fun q hq => hids q (List.mem_cons_of_mem _ hq)) hkeeps.2
    rw [Machine.stateAfter_cons, Machine.outputs_cons, houtputs, List.map_cons]
    refine ⟨hlast, fun id hmem => hmono' id (hmono id hmem), ?_⟩
    rcases hflag with ⟨hflag, hgood, hmem⟩ | ⟨hflag, hrefused⟩
    · rw [hflag, decide_eq_true ⟨hgood, hmono' _ hmem⟩]
      rfl
    · have hnot : ¬ (isGood p r = true ∧ r.loopId ∈ idsOf (Machine.stateAfter
          (activateStep p mergeEngineering) (activateStep p mergeEngineering t r).1 requests).registry) := by
        rintro ⟨hgood, hmem⟩
        obtain ⟨y, hy, htwins⟩ := hrefused hgood
        exact hlast.apart y (hmono' y (hmono y hy)) r.loopId hmem htwins
      rw [hflag, decide_eq_false hnot]
      rfl

end Requests

/-! ## The batch -/

theorem refusals_collideRows {s : Tables} {v : Sieve} (h : Refusals v.outcomes) :
    Refusals (collideRows p s v).outcomes := by
  have hfold : ∀ (rows : List CpmLoopActivateRequest) (acc : KnownIds × Sieve),
      Refusals acc.2.outcomes → Refusals (rows.foldl (collideRow p) acc).2.outcomes := by
    intro rows
    induction rows with
    | nil => exact fun _ h => h
    | cons r rows ih =>
      intro acc hacc
      refine ih _ ?_
      unfold collideRow
      dsimp only
      split
      · exact hacc.reject _ _ _
      · split
        · exact hacc.reject _ _ _
        · exact hacc
  exact hfold v.rows _ h

theorem rows_collideRows (s : Tables) (v : Sieve) : ∀ r ∈ (collideRows p s v).rows, r ∈ v.rows := by
  have hfold : ∀ (rows : List CpmLoopActivateRequest) (acc : KnownIds × Sieve),
      ∀ r ∈ (rows.foldl (collideRow p) acc).2.rows, r ∈ acc.2.rows ∨ r ∈ rows := by
    intro rows
    induction rows with
    | nil => exact fun _ _ hr => .inl hr
    | cons q rows ih =>
      intro acc r hr
      rcases ih _ r hr with hr | hr
      · have hrow : r ∈ acc.2.rows ++ [q] := by
          unfold collideRow at hr
          dsimp only at hr
          split at hr
          · exact List.mem_append_left _ hr
          · split at hr
            · exact List.mem_append_left _ hr
            · exact hr
        rcases List.mem_append.mp hrow with hrow | hrow
        · exact .inl hrow
        · exact .inr (List.mem_singleton.mp hrow ▸ List.mem_cons_self)
      · exact .inr (List.mem_cons_of_mem _ hr)
  exact fun r hr => (hfold v.rows _ r hr).resolve_left List.not_mem_nil

theorem refusals_bulkRows (rows : List CpmLoopActivateRequest) {w : Written}
    (h : Refusals w.sieve.outcomes) : Refusals (rows.foldl (bulkRow p) w).sieve.outcomes := by
  induction rows generalizing w with
  | nil => exact h
  | cons r rows ih =>
    refine ih ?_
    unfold bulkRow
    split
    · exact h
    · exact h.reject _ _ _

theorem ok_of_written (written : List CpmLoopActivateRequest) {outcomes : Dict String CpmBulkActivateItem}
    (h : Refusals outcomes) (id : String) :
    (((written.foldl (fun d r => d.set r.loopId ⟨r.loopId, true, none, none⟩) outcomes).get? id).getD
      ⟨id, false, some "Not processed", some "UNKNOWN"⟩).ok =
        decide (id ∈ written.map CpmLoopActivateRequest.loopId) := by
  induction written using List.reverseRecOn with
  | nil =>
    rw [List.foldl_nil, List.map_nil, decide_eq_false List.not_mem_nil]
    cases hget : outcomes.get? id with
    | none => rfl
    | some item => exact h id item hget
  | append_singleton written r ih =>
    rw [List.foldl_append, List.foldl_cons, List.foldl_nil, Dict.get?_set]
    split
    · rename_i heq
      subst heq
      exact (decide_eq_true (List.mem_map_of_mem
        (List.mem_append_right _ List.mem_cons_self))).symm
    · rename_i hne
      rw [ih, decide_eq_decide, List.map_append, List.mem_append, List.map_singleton,
        List.mem_singleton]
      exact (or_iff_left hne).symm

theorem bulk_eq_requests {s : Tables} {requests : List CpmLoopActivateRequest}
    (h : Regular p s requests) :
    (bulkActivateAsync p s requests).1 =
        Machine.stateAfter (activateStep p mergeEngineering) s requests ∧
      (bulkActivateAsync p s requests).2.map CpmBulkActivateItem.ok =
        Machine.outputs (activateStep p mergeEngineering) s requests := by
  have hwithin : ∀ id ∈ idsOf s.registry,
      id ∈ idsOf s.registry ++ requests.map CpmLoopActivateRequest.loopId :=
    fun _ hid => List.mem_append_left _ hid
  have hids : ∀ r ∈ requests,
      r.loopId ∈ idsOf s.registry ++ requests.map CpmLoopActivateRequest.loopId :=
    fun _ hr => List.mem_append_right _ (List.mem_map_of_mem hr)
  have happart : ∀ a ∈ idsOf s.registry, ∀ b ∈ idsOf s.registry, ¬ Twins p a b := by
    rintro a ha b hb ⟨hne, hlower | hnode⟩
    · exact hne (h.stored.lower a ha b hb ((h.casing a (hwithin a ha) b (hwithin b hb)).mpr hlower))
    · exact hne (h.nodes a ha b hb hnode)
  -- the rows that are left of the checks
  obtain ⟨hchecked, hvalid, -⟩ := left_validateRows fun r hr r' hr' heq => (h.alike r hr r' hr' heq).1
  obtain ⟨hlocated, hloc⟩ := left_locateRows hvalid hchecked.refusals fun r hr r' hr' heq =>
    (h.alike r (hchecked.sublist.subset hr) r' (hchecked.sublist.subset hr') heq).2
  generalize hv : locateRows p (validateRows p requests) = v at hlocated hloc
  have hsublist : v.rows.Sublist requests := hlocated.sublist.trans hchecked.sublist
  have hgood : v.rows.filter (isGood p) = requests.filter (isGood p) := hlocated.good.trans hchecked.good
  have hpasses : ∀ r ∈ v.rows, isValid p r = true ∧ isLocated p r = true ∧
      r.loopId ∈ idsOf s.registry ++ requests.map CpmLoopActivateRequest.loopId :=
    fun r hr => ⟨hvalid r (hlocated.sublist.subset hr), hloc r hr, hids r (hsublist.subset hr)⟩
  have hlate : v.rows.Pairwise fun w r =>
      isWritable w = false → isGood p r = true → ¬ Twins p w.loopId r.loopId :=
    (h.late.sublist hsublist).imp_of_mem fun hw _ hpair => hpair (hpasses _ hw).1 (hpasses _ hw).2.1
  -- the requests that are not good change nothing, so they may be left out
  have hskip : ∀ (t : Tables) (r : CpmLoopActivateRequest), isGood p r = false →
      (activateStep p mergeEngineering t r).1 = t ∧ (isGood p r = true → KeepsStored t r) := by
    intro t r hbad
    refine ⟨?_, fun hgood => absurd (hbad.symm.trans hgood) Bool.false_ne_true⟩
    rw [activateStep_of_not_good hbad]
  have hkeeps : Machine.Always (activateStep p mergeEngineering)
      (fun t r => isGood p r = true → KeepsStored t r) s v.rows := by
    rw [← Machine.always_filter hskip, hgood, Machine.always_filter hskip]
    exact h.models
  have hlast : Machine.stateAfter (activateStep p mergeEngineering) s v.rows =
      Machine.stateAfter (activateStep p mergeEngineering) s requests := by
    rw [← Machine.stateAfter_filter (fun t r hbad => (hskip t r hbad).1) s v.rows, hgood,
      Machine.stateAfter_filter fun t r hbad => (hskip t r hbad).1]
  have hmatches := matches_run h.stored hwithin happart h.casing hpasses hlate hkeeps v.outcomes
  rw [hlast] at hmatches
  -- the batch is written row by row
  have hcollided : ∀ r ∈ (collideRows p s v).rows, r ∈ v.rows := rows_collideRows s v
  have hwrite : writeBatch p s (collideRows p s v) = (collideRows p s v).rows.foldl (bulkRow p)
      ⟨s, (collideRows p s v).outcomes, []⟩ :=
    writeBatch_eq_foldl (fun r hr => validate_of_isValid (hpasses r (hcollided r hr)).1)
      (fun r hr => h.profiles r (hsublist.subset (hcollided r hr))) s
  have hrefusals : Refusals (writeBatch p s (collideRows p s v)).sieve.outcomes := by
    rw [hwrite]
    exact refusals_bulkRows _ (refusals_collideRows hlocated.refusals)
  obtain ⟨-, -, houtputs⟩ := Running.outputs ⟨h.stored, hwithin, happart⟩ h.casing hids h.models
  unfold bulkActivateAsync
  rw [hv]
  dsimp only
  refine ⟨?_, ?_⟩
  · rw [hwrite]
    exact hmatches.tables _
  · rw [houtputs, List.map_map]
    refine List.map_congr_left fun r hr => ?_
    rw [Function.comp_apply, ok_of_written _ hrefusals, decide_eq_decide, hwrite]
    constructor
    · intro hmem
      obtain ⟨q, hq, hqid⟩ := List.mem_map.mp hmem
      obtain ⟨hqrow, hqgood, hqmem⟩ := hmatches.written _ q hq
      rw [← (h.alike q (hsublist.subset hqrow) r hr hqid).1, ← hqid]
      exact ⟨hqgood, hqmem⟩
    · rintro ⟨hrgood, hrmem⟩
      have hrow : r ∈ v.rows.filter (isGood p) := hgood ▸ List.mem_filter.mpr ⟨hr, hrgood⟩
      exact hmatches.reported _ r (List.mem_of_mem_filter hrow) hrgood hrmem

/-! ## The engineering column -/

theorem idsOf_withoutEngineering (registry : List RegistryRow) :
    idsOf (registry.map RegistryRow.withoutEngineering) = idsOf registry := by
  unfold idsOf
  rw [List.map_map]
  rfl

theorem withoutEngineering_update (rule : EngineeringRule) (c : Proposed) (m : ModelColumns)
    (x : RegistryRow) : (c.update rule m x).withoutEngineering =
      (c.update coalesce m x.withoutEngineering).withoutEngineering := rfl

theorem upsert_withoutEngineering (rule : EngineeringRule) (c : Proposed) (m : ModelColumns)
    (registry : List RegistryRow) :
    (upsert p registry (c.insert m) (c.update rule m)).map (List.map RegistryRow.withoutEngineering) =
      (upsert p (registry.map RegistryRow.withoutEngineering) (c.insert m) (c.update coalesce m)).map
        (List.map RegistryRow.withoutEngineering) := by
  unfold upsert
  have hids : (registry.map RegistryRow.withoutEngineering).map RegistryRow.loopId =
      registry.map RegistryRow.loopId := idsOf_withoutEngineering registry
  have hlower : (∃ x ∈ registry.map RegistryRow.withoutEngineering,
      p.lower x.loopId = p.lower (c.insert m).loopId) ↔
        ∃ x ∈ registry, p.lower x.loopId = p.lower (c.insert m).loopId := by
    constructor
    · rintro ⟨x, hx, heq⟩
      obtain ⟨y, hy, rfl⟩ := List.mem_map.mp hx
      exact ⟨y, hy, heq⟩
    · rintro ⟨x, hx, heq⟩
      exact ⟨_, List.mem_map_of_mem hx, heq⟩
  rw [hids]
  split
  · rw [Option.map_some, Option.map_some, List.map_map, List.map_map, List.map_map]
    refine congrArg some (List.map_congr_left fun x _ => ?_)
    rw [Function.comp_apply, Function.comp_apply, Function.comp_apply]
    have hid : x.withoutEngineering.loopId = x.loopId := rfl
    rw [hid]
    split
    · exact withoutEngineering_update rule c m x
    · rfl
  · rw [if_congr hlower rfl rfl]
    split
    · rfl
    · rw [Option.map_some, Option.map_some, List.map_append, List.map_append, List.map_map]
      rfl

theorem write_withoutEngineering (rule : EngineeringRule) (s : Tables) (r : CpmLoopActivateRequest) :
    (write p rule s r).map Tables.withoutEngineering =
      (write p coalesce s.withoutEngineering r).map Tables.withoutEngineering := by
  unfold write Tables.withoutEngineering
  dsimp only
  have hfind : ((s.registry.map RegistryRow.withoutEngineering).find? fun x => x.loopId = r.loopId).map
        (fun x => x.model.fromRow) =
      (s.registry.find? fun x => x.loopId = r.loopId).map fun x => x.model.fromRow := by
    rw [List.find?_map, Option.map_map]
    rfl
  rw [hfind]
  cases proposedOf r with
  | none => rfl
  | some c =>
    cases ModelColumns.ofResolved (LoopModelDimensions.resolve r.loopType r.model
        ((s.registry.find? fun x => x.loopId = r.loopId).map fun x => x.model.fromRow)) with
    | none => rfl
    | some m =>
      cases tagRowsOf r with
      | none => rfl
      | some rows =>
        simp only [Option.bind_eq_bind, Option.bind_some]
        split
        · have hupsert := congrArg (Option.map fun registry : List RegistryRow => (⟨registry, insertTags
            (s.tagMap.filter fun t => t.loopId ≠ r.loopId) rows⟩ : Tables))
            (upsert_withoutEngineering (p := p) rule c m s.registry)
          rw [Option.map_map, Option.map_map] at hupsert ⊢
          exact hupsert
        · rfl

theorem activateStep_withoutEngineering (rule rule' : EngineeringRule) {s t : Tables}
    (h : s.withoutEngineering = t.withoutEngineering) (r : CpmLoopActivateRequest) :
    (activateStep p rule s r).1.withoutEngineering = (activateStep p rule' t r).1.withoutEngineering ∧
      (activateStep p rule s r).2 = (activateStep p rule' t r).2 := by
  have hids : idsOf s.registry = idsOf t.registry := by
    have hregistry : s.registry.map RegistryRow.withoutEngineering =
        t.registry.map RegistryRow.withoutEngineering := congrArg Tables.registry h
    rw [← idsOf_withoutEngineering, hregistry, idsOf_withoutEngineering]
  have hcollides : Collides p s.registry r.loopId ↔ Collides p t.registry r.loopId := by
    unfold Collides
    rw [hids]
  have hwrite : (write p rule s r).map Tables.withoutEngineering =
      (write p rule' t r).map Tables.withoutEngineering := by
    rw [write_withoutEngineering rule, write_withoutEngineering rule', h]
  rw [activateStep_eq, activateStep_eq]
  by_cases hpasses : isValid p r = true ∧ isLocated p r = true ∧ ¬ Collides p s.registry r.loopId
  · rw [if_pos hpasses, if_pos ⟨hpasses.1, hpasses.2.1, mt hcollides.mpr hpasses.2.2⟩]
    cases hs : write p rule s r with
    | none =>
      rw [hs] at hwrite
      rw [Option.map_eq_none_iff.mp hwrite.symm]
      exact ⟨h, rfl⟩
    | some s' =>
      rw [hs] at hwrite
      obtain ⟨t', ht, heq⟩ := Option.map_eq_some_iff.mp hwrite.symm
      rw [ht]
      exact ⟨heq.symm, rfl⟩
  · rw [if_neg hpasses, if_neg fun hpasses' =>
      hpasses ⟨hpasses'.1, hpasses'.2.1, mt hcollides.mp hpasses'.2.2⟩]
    exact ⟨h, rfl⟩

theorem requests_withoutEngineering (rule rule' : EngineeringRule) {s t : Tables}
    (h : s.withoutEngineering = t.withoutEngineering) (requests : List CpmLoopActivateRequest) :
    (Machine.stateAfter (activateStep p rule) s requests).withoutEngineering =
        (Machine.stateAfter (activateStep p rule') t requests).withoutEngineering ∧
      Machine.outputs (activateStep p rule) s requests =
        Machine.outputs (activateStep p rule') t requests := by
  induction requests generalizing s t with
  | nil => exact ⟨h, rfl⟩
  | cons r requests ih =>
    obtain ⟨hstate, hflag⟩ := activateStep_withoutEngineering (p := p) rule rule' h r
    obtain ⟨hlast, houtputs⟩ := ih hstate
    rw [Machine.stateAfter_cons, Machine.stateAfter_cons, Machine.outputs_cons, Machine.outputs_cons,
      hflag, houtputs]
    exact ⟨hlast, rfl⟩

def onePlant : Platform where
  toLowerInvariant := toLowerInvariant
  lower := toLowerInvariant
  isLetterOrDigit := Char.isAlphanum
  isDigit := Char.isDigit
  isLetter := Char.isAlpha
  isNumber := Char.isDigit
  writeError := fun _ => "write failed"
  assets := some fun path => if path = "hdpe" then some 1 else none

def fourRoles (loopId : String) : List CpmTagMapEntry :=
  ["PV", "SP", "OP", "MODE"].map fun role => { signalRole := role, unsPath := "hdpe/" ++ loopId }

def flowLoop (loopId displayName : String) : CpmLoopActivateRequest :=
  { loopId := loopId, displayName := displayName, site := "hdpe", loopType := "FIC",
    tags := fourRoles loopId }

def onboardingFile : List CpmLoopActivateRequest :=
  [flowLoop "FIC-101" "Feed", flowLoop "fic-101" "Feed", flowLoop "FIC-101" "Feed flow",
    { flowLoop "LIC-7" "Drum" with loopType := "LEVEL" }, flowLoop "FIC.101" "Feed"]

def withUnit : CpmLoopActivateRequest :=
  { flowLoop "FIC-101" "Feed" with engineering := some { pvUnit := some "kg/h" } }

def withoutUnit : CpmLoopActivateRequest :=
  { flowLoop "FIC-101" "Feed" with engineering := some { vpApplicability := some "NOT_INSTALLED" } }

def storedUnits (s : Tables) : List Bool := s.registry.map fun x => (x.engineering.get "pvUnit").isSome

end CpmLoopRegistryService

end OpenBridge.Registry
