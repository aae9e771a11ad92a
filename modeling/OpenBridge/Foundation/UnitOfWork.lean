import OpenBridge.Foundation.Dict
import OpenBridge.Foundation.Machine

/-!
# Foundation: a unit of work over stored rows

Rows are queried, changed in memory, added and removed, and a save writes all of it at once.  Until
then a query sees the rows that are stored: an added row is not found, and a removed one still is.
-/

namespace OpenBridge.Foundation

namespace UnitOfWork

inductive Status where
  /-- The row is stored, and written if it was changed. -/
  | stored
  /-- The row is inserted. -/
  | added
  /-- The row is deleted. -/
  | removed
  deriving DecidableEq

structure Entry (ν : Type) where
  value : ν
  status : Status
  deriving DecidableEq

variable {κ ν : Type}

abbrev Work (κ ν : Type) := Dict κ (Entry ν)

/-- A query for some rows, what is done with each of them, and the row that is added when none of
them matches. -/
structure Command (κ ν : Type) where
  /-- What the query asks for. -/
  selects : ν → Bool
  /-- Which of these rows is the one that is meant. -/
  finds : ν → Bool
  /-- The new value of a row, and whether it is removed. -/
  change : ν → ν × Bool
  /-- What is added when no row is found. -/
  create : Except String (Option (κ × ν))

namespace Command

variable (c : Command κ ν)

def touch (e : Entry ν) : Entry ν :=
  if e.status ≠ .added ∧ c.selects e.value then
    { value := (c.change e.value).1
      status := if (c.change e.value).2 then .removed else e.status }
  else e

def foundVisible (w : Work κ ν) : Bool :=
  w.values.any fun e => e.status ≠ .added ∧ c.selects e.value ∧ c.finds e.value

def foundLive (w : Work κ ν) : Bool :=
  w.values.any fun e => e.status ≠ .removed ∧ c.selects e.value ∧ c.finds e.value

variable [DecidableEq κ]

/-- A command.  A second row under a key is refused, here already where the key is stored and its
row was not queried. -/
def exec (w : Work κ ν) : Except String (Work κ ν) :=
  let touched := w.mapValues c.touch
  if c.foundVisible w then .ok touched
  else
    match c.create with
    | .error e => .error e
    | .ok none => .ok touched
    | .ok (some (k, v)) =>
        if w.contains k then .error "The key is already tracked"
        else .ok (touched.set k { value := v, status := .added })

end Command

/-! ## Saving -/

def savedEntry (e : κ × Entry ν) : Option (κ × Entry ν) :=
  if e.2.status = .removed then none else some (e.1, { value := e.2.value, status := .stored })

theorem nodup_savedEntries {es : List (κ × Entry ν)} (h : (es.map Prod.fst).Nodup) :
    ((es.filterMap savedEntry).map Prod.fst).Nodup := by
  refine h.sublist ?_
  induction es with
  | nil => exact List.Sublist.slnil
  | cons e rest ih =>
    have ih := ih (List.nodup_cons.mp h).2
    unfold savedEntry
    rw [List.filterMap_cons, List.map_cons]
    split
    · exact ih.cons _
    · rename_i hsaved
      split at hsaved
      · cases hsaved
      · obtain rfl := Option.some.inj hsaved
        exact ih.cons_cons _

def saved (w : Work κ ν) : Work κ ν := ⟨w.entries.filterMap savedEntry, nodup_savedEntries w.nodupKeys⟩

def live (w : Work κ ν) : List ν := (saved w).values.map Entry.value

section Batches

variable [DecidableEq κ] (valid : List ν → Bool)

def save (w : Work κ ν) : Except String (Work κ ν) :=
  if valid (live w) then .ok (saved w) else .error "A constraint is violated"

abbrev Request (κ ν : Type) := Except String (Command κ ν)

def process (w : Work κ ν) (r : Request κ ν) : Except String (Work κ ν) := r.bind fun c => c.exec w

def batch (w : Work κ ν) (rs : List (Request κ ν)) : Work κ ν :=
  match (rs.foldlM process w).bind (save valid) with
  | .ok stored => stored
  | .error _ => w

def processAndSave (w : Work κ ν) (r : Request κ ν) : Work κ ν :=
  match (process w r).bind (save valid) with
  | .ok stored => stored
  | .error _ => w

def sequentially (w : Work κ ν) (rs : List (Request κ ν)) : Work κ ν :=
  rs.foldl (processAndSave valid) w

def step (w : Work κ ν) (r : Request κ ν) : Work κ ν × List Empty :=
  match process w r with
  | .ok next => (next, [])
  | .error _ => (w, [])

/-- The command does not depend on what is not saved yet: it leaves the added rows as they are, it
finds a row exactly where one is live, a row that it adds has a new key, and the rows it leaves keep
the constraints. -/
structure Independent (w : Work κ ν) (c : Command κ ν) : Prop where
  added : ∀ e ∈ w.values, e.status = .added → c.selects e.value = true →
    c.change e.value = (e.value, false)
  found : c.create ≠ .ok none → c.foundVisible w = c.foundLive w
  new : c.foundVisible w = false → c.create = .ok none ∨
    ∃ k v, c.create = .ok (some (k, v)) ∧ k ∉ w.keys
  accepted : ∀ next, c.exec w = .ok next → valid (live next) = true

def IndependentRequest (w : Work κ ν) (r : Request κ ν) : Prop :=
  ∃ c, r = .ok c ∧ Independent valid w c

end Batches

/-! ## What a save leaves of a changed row -/

theorem mem_entries_of_mem_values {w : Work κ ν} {e : Entry ν} :
    e ∈ w.values ↔ ∃ k, (k, e) ∈ w.entries := by
  unfold Dict.values
  constructor
  · intro he
    obtain ⟨⟨k, e⟩, hmem, rfl⟩ := List.mem_map.mp he
    exact ⟨k, hmem⟩
  · rintro ⟨k, hmem⟩
    exact List.mem_map_of_mem hmem

theorem savedEntry_touch_removed (c : Command κ ν) (k : κ) (value : ν) :
    savedEntry (k, c.touch { value := value, status := .removed }) = none := by
  refine if_pos ?_
  unfold Command.touch
  dsimp only
  split
  · exact ite_self _
  · rfl

theorem savedEntries_touch {c : Command κ ν} {es : List (κ × Entry ν)}
    (h : ∀ e ∈ es, e.2.status = .added → c.selects e.2.value = true →
      c.change e.2.value = (e.2.value, false)) :
    ((es.filterMap savedEntry).map fun e => (e.1, c.touch e.2)).filterMap savedEntry =
      (es.map fun e => (e.1, c.touch e.2)).filterMap savedEntry := by
  induction es with
  | nil => rfl
  | cons e rest ih =>
    have hrest := ih fun e' he' => h e' (List.mem_cons_of_mem _ he')
    have hhead := h e List.mem_cons_self
    obtain ⟨k, value, status⟩ := e
    cases status with
    | stored =>
      have hkeep : savedEntry (k, { value := value, status := .stored }) =
          some (k, { value := value, status := .stored }) := rfl
      rw [List.filterMap_cons_some hkeep, List.map_cons, List.map_cons, List.filterMap_cons,
        List.filterMap_cons, hrest]
    | removed =>
      have hdrop : savedEntry (k, { value := value, status := .removed }) = none := rfl
      rw [List.filterMap_cons_none hdrop, List.map_cons,
        List.filterMap_cons_none (savedEntry_touch_removed c k value), hrest]
    | added =>
      have hkeep : savedEntry (k, { value := value, status := .added }) =
          some (k, { value := value, status := .stored }) := rfl
      have hstored : savedEntry (k, { value := value, status := .stored }) =
          some (k, { value := value, status := .stored }) := rfl
      have hsame : c.touch { value := value, status := .stored } =
          { value := value, status := .stored } := by
        unfold Command.touch
        dsimp only
        split
        · rename_i hselects
          rw [hhead rfl hselects.2]
          rfl
        · rfl
      have huntouched : c.touch { value := value, status := .added } =
          { value := value, status := .added } := if_neg fun hvisible => hvisible.1 rfl
      rw [List.filterMap_cons_some hkeep, List.map_cons, List.map_cons, hsame, huntouched,
        List.filterMap_cons_some hkeep, List.filterMap_cons_some hstored, hrest]

theorem saved_touch {c : Command κ ν} {w : Work κ ν}
    (h : ∀ e ∈ w.values, e.status = .added → c.selects e.value = true →
      c.change e.value = (e.value, false)) :
    saved ((saved w).mapValues c.touch) = saved (w.mapValues c.touch) :=
  Dict.ext (savedEntries_touch fun e he =>
    h e.2 (mem_entries_of_mem_values.mpr ⟨e.1, he⟩))

theorem keys_saved_subset {w : Work κ ν} {k : κ} (h : k ∈ (saved w).keys) : k ∈ w.keys := by
  obtain ⟨e, he, rfl⟩ := List.mem_map.mp h
  obtain ⟨e', he', hsaved⟩ := List.mem_filterMap.mp he
  unfold savedEntry at hsaved
  split at hsaved
  · cases hsaved
  · obtain rfl := Option.some.inj hsaved
    exact List.mem_map.mpr ⟨e', he', rfl⟩

theorem get?_saved [DecidableEq κ] (w : Work κ ν) (k : κ) :
    (saved w).get? k = (w.get? k).bind fun e =>
      if e.status = .removed then none else some { value := e.value, status := .stored } := by
  refine Option.ext fun e => ?_
  rw [Dict.get?_eq_some_iff, Option.bind_eq_some_iff]
  constructor
  · intro he
    obtain ⟨⟨k', e'⟩, he', hsaved⟩ := List.mem_filterMap.mp he
    unfold savedEntry at hsaved
    dsimp only at hsaved
    split at hsaved
    · cases hsaved
    · rename_i hlive
      obtain ⟨rfl, rfl⟩ := Prod.mk.inj (Option.some.inj hsaved)
      exact ⟨e', Dict.get?_eq_some_iff.mpr he', if_neg hlive⟩
  · rintro ⟨e', he', hsaved⟩
    split at hsaved
    · cases hsaved
    · rename_i hlive
      obtain rfl := Option.some.inj hsaved
      exact List.mem_filterMap.mpr ⟨(k, e'), Dict.get?_eq_some_iff.mp he', if_neg hlive⟩

theorem foundVisible_saved (c : Command κ ν) (w : Work κ ν) :
    c.foundVisible (saved w) = c.foundLive w := by
  refine Bool.eq_iff_iff.mpr ?_
  unfold Command.foundVisible Command.foundLive
  simp only [List.any_eq_true, decide_eq_true_eq]
  constructor
  · rintro ⟨e, he, hvisible, hfound⟩
    obtain ⟨k, he⟩ := mem_entries_of_mem_values.mp he
    obtain ⟨e', he', hsaved⟩ := List.mem_filterMap.mp he
    unfold savedEntry at hsaved
    split at hsaved
    · cases hsaved
    · rename_i hlive
      obtain ⟨-, rfl⟩ := Prod.mk.inj (Option.some.inj hsaved)
      exact ⟨e'.2, mem_entries_of_mem_values.mpr ⟨e'.1, he'⟩, hlive, hfound⟩
  · rintro ⟨e, he, hlive, hfound⟩
    obtain ⟨k, he⟩ := mem_entries_of_mem_values.mp he
    have hmem : (k, ({ value := e.value, status := .stored } : Entry ν)) ∈ (saved w).entries :=
      List.mem_filterMap.mpr ⟨(k, e), he, if_neg hlive⟩
    exact ⟨_, mem_entries_of_mem_values.mpr ⟨k, hmem⟩, nofun, hfound⟩

/-! ## Constraints on the rows -/

section Constraints

variable {α : Type} {key : ν → α} {c : Command κ ν}

theorem live_eq (w : Work κ ν) : live w = (w.entries.filterMap savedEntry).map fun e => e.2.value := by
  unfold live Dict.values
  rw [List.map_map]
  rfl

theorem map_live_touch_sublist (hkey : ∀ v, key (c.change v).1 = key v) (w : Work κ ν) :
    ((live (w.mapValues c.touch)).map key).Sublist ((live w).map key) := by
  rw [live_eq, live_eq, Dict.entries_mapValues, List.map_map, List.map_map]
  induction w.entries with
  | nil => exact List.Sublist.slnil
  | cons e rest ih =>
    obtain ⟨k, value, status⟩ := e
    have hvalue : ∀ e' : Entry ν, key (c.touch e').value = key e'.value := by
      intro e'
      unfold Command.touch
      split
      · exact hkey _
      · rfl
    rw [List.map_cons]
    cases htouched : savedEntry (k, c.touch { value := value, status := status }) with
    | none =>
      rw [List.filterMap_cons_none htouched]
      cases hkept : savedEntry (k, ({ value := value, status := status } : Entry ν)) with
      | none =>
        rw [List.filterMap_cons_none hkept]
        exact ih
      | some e' =>
        rw [List.filterMap_cons_some hkept, List.map_cons]
        exact ih.cons _
    | some touched =>
      -- a row that is left was not removed before
      have hlive : status ≠ .removed := by
        rintro rfl
        rw [savedEntry_touch_removed] at htouched
        cases htouched
      have hkept : savedEntry (k, ({ value := value, status := status } : Entry ν)) =
          some (k, { value := value, status := .stored }) := if_neg hlive
      have hsame : key touched.2.value = key value := by
        unfold savedEntry at htouched
        split at htouched
        · cases htouched
        · obtain rfl := Option.some.inj htouched
          exact hvalue _
      rw [List.filterMap_cons_some htouched, List.filterMap_cons_some hkept, List.map_cons,
        List.map_cons]
      dsimp only [Function.comp]
      rw [hsame]
      exact ih.cons_cons _

theorem live_set_added [DecidableEq κ] {w : Work κ ν} {k : κ} (h : k ∉ w.keys) (v : ν) :
    live (w.set k { value := v, status := .added }) = live w ++ [v] := by
  rw [live_eq, live_eq, Dict.entries_set_of_not_mem h, List.filterMap_append, List.map_append]
  rfl

theorem pairwise_live_exec [DecidableEq κ] {R : α → α → Prop} {w next : Work κ ν}
    (hkey : ∀ v, key (c.change v).1 = key v) (h : ((live w).map key).Pairwise R)
    (hnew : c.foundVisible w = false → ∀ k v, c.create = .ok (some (k, v)) → k ∉ w.keys ∧
      ∀ v' ∈ live w, R (key v') (key v))
    (hexec : c.exec w = .ok next) : ((live next).map key).Pairwise R := by
  have hsub := map_live_touch_sublist hkey w
  have htouched := h.sublist hsub
  unfold Command.exec at hexec
  dsimp only at hexec
  split at hexec
  · obtain rfl := Except.ok.inj hexec
    exact htouched
  · rename_i hmissing
    split at hexec
    · cases hexec
    · obtain rfl := Except.ok.inj hexec
      exact htouched
    · rename_i k v hcreate
      split at hexec
      · cases hexec
      · obtain rfl := Except.ok.inj hexec
        obtain ⟨hk, hclear⟩ := hnew (Bool.eq_false_iff.mpr hmissing) k v hcreate
        have hk : k ∉ (w.mapValues c.touch).keys := by rwa [Dict.keys_mapValues]
        rw [live_set_added hk, List.map_append, List.pairwise_append]
        refine ⟨htouched, List.pairwise_singleton _ _, ?_⟩
        intro x hx y hy
        obtain rfl := List.mem_singleton.mp hy
        obtain ⟨v', hv', rfl⟩ := List.mem_map.mp (hsub.subset hx)
        exact hclear v' hv'

end Constraints

section Batches

variable [DecidableEq κ] {valid : List ν → Bool}

theorem saved_set_added {w : Work κ ν} {k : κ} (h : k ∉ w.keys) (v : ν) :
    (saved (w.set k { value := v, status := .added })).entries =
      (saved w).entries ++ [(k, { value := v, status := .stored })] := by
  change (w.set k { value := v, status := .added }).entries.filterMap savedEntry = _
  rw [Dict.entries_set_of_not_mem h, List.filterMap_append]
  rfl

theorem contains_eq_false {w : Work κ ν} {k : κ} (h : k ∉ w.keys) : w.contains k = false := by
  unfold Dict.contains
  rw [Dict.get?_eq_none_iff.mpr h]
  rfl

theorem Independent.exec {w : Work κ ν} {c : Command κ ν} (h : Independent valid w c) :
    ∃ next next', c.exec w = .ok next ∧ c.exec (saved w) = .ok next' ∧
      saved next' = saved next := by
  have htouched := saved_touch h.added
  unfold Command.exec
  rw [foundVisible_saved]
  dsimp only
  cases hcreate : c.create with
  | error e =>
    -- the row is found in both
    have hfound := h.found (by simp [hcreate])
    have hvisible : c.foundVisible w = true := by
      by_contra hmissing
      rcases h.new (Bool.eq_false_iff.mpr hmissing) with hnone | ⟨k, v, hsome, -⟩
      · rw [hcreate] at hnone
        cases hnone
      · rw [hcreate] at hsome
        cases hsome
    rw [← hfound, hvisible]
    exact ⟨_, _, rfl, rfl, htouched⟩
  | ok created =>
    cases created with
    | none =>
      simp only [ite_self]
      exact ⟨_, _, rfl, rfl, htouched⟩
    | some kv =>
      obtain ⟨k, v⟩ := kv
      have hfound := h.found (by simp [hcreate])
      rw [← hfound]
      cases hvisible : c.foundVisible w with
      | true => exact ⟨_, _, rfl, rfl, htouched⟩
      | false =>
        have hkey : k ∉ w.keys := by
          rcases h.new hvisible with hnone | ⟨k', v', hsome, hk⟩
          · rw [hcreate] at hnone
            cases hnone
          · rw [hcreate] at hsome
            obtain ⟨rfl, -⟩ := Prod.mk.inj (Option.some.inj (Except.ok.inj hsome))
            exact hk
        have hkey' : k ∉ (saved w).keys := fun hk => hkey (keys_saved_subset hk)
        have hmap : k ∉ (w.mapValues c.touch).keys := by rwa [Dict.keys_mapValues]
        have hmap' : k ∉ ((saved w).mapValues c.touch).keys := by rwa [Dict.keys_mapValues]
        simp only [contains_eq_false hkey, contains_eq_false hkey', Bool.false_eq_true, if_false]
        refine ⟨_, _, rfl, rfl, Dict.ext ?_⟩
        rw [saved_set_added hmap, saved_set_added hmap', htouched]

theorem step_of_independent {w : Work κ ν} {r : Request κ ν} (h : IndependentRequest valid w r) :
    ∃ next, process w r = .ok next ∧ step w r = (next, []) ∧ valid (live next) = true ∧
      processAndSave valid (saved w) r = saved next := by
  obtain ⟨c, rfl, hc⟩ := h
  obtain ⟨next, next', hexec, hexec', hsaved⟩ := hc.exec
  have hvalid := hc.accepted next hexec
  have hprocess : process w (.ok c) = .ok next := hexec
  have hprocess' : process (saved w) (.ok c) = .ok next' := hexec'
  refine ⟨next, hprocess, ?_, hvalid, ?_⟩
  · rw [step, hprocess]
  · have hlive : live next' = live next := congrArg (fun s => s.values.map Entry.value) hsaved
    have hsave : save valid next' = .ok (saved next) := by
      rw [save, hlive, if_pos hvalid, hsaved]
    rw [processAndSave, hprocess', Except.bind, hsave]

theorem batch_eq_sequentially {w : Work κ ν} (hw : saved w = w) {rs : List (Request κ ν)}
    (h : Machine.Always step (IndependentRequest valid) w rs) :
    batch valid w rs = sequentially valid w rs := by
  have hrun : rs.foldlM process w = .ok (Machine.stateAfter step w rs) ∧
      sequentially valid w rs = saved (Machine.stateAfter step w rs) ∧
      (rs = [] ∨ valid (live (Machine.stateAfter step w rs)) = true) := by
    induction rs using List.reverseRecOn with
    | nil => exact ⟨rfl, hw.symm, Or.inl rfl⟩
    | append_singleton pre r ih =>
      rw [Machine.always_concat] at h
      obtain ⟨hfold, hsequential, -⟩ := ih h.1
      obtain ⟨next, hprocess, hstep, hvalid, hsaved⟩ := step_of_independent h.2
      rw [Machine.stateAfter_concat, hstep]
      refine ⟨?_, ?_, Or.inr hvalid⟩
      · rw [List.foldlM_append, hfold]
        change (List.foldlM process (Machine.stateAfter step w pre) [r]) = .ok next
        simp only [List.foldlM_cons, List.foldlM_nil, hprocess]
        rfl
      · unfold sequentially at hsequential ⊢
        rw [List.foldl_append, hsequential]
        exact hsaved
  obtain ⟨hfold, hsequential, hvalid⟩ := hrun
  rw [hsequential]
  unfold batch
  rw [hfold, Except.bind, save]
  rcases hvalid with rfl | hvalid
  · split
    · rename_i stored hstored
      split at hstored
      · exact (Except.ok.inj hstored).symm
      · cases hstored
    · exact hw.symm
  · rw [if_pos hvalid]

end Batches

end UnitOfWork

end OpenBridge.Foundation
