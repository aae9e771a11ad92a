import OpenBridge.HealthGateway.EpochTracker

/-!
# Health gateway: de-duplication

`HealthDedupe`: a bounded memory of the observations, the one used last first.
-/

namespace OpenBridge.HealthGateway

open OpenBridge.Foundation
open OpenBridge.InstrumentHealth (JsonObject)

inductive DedupeVerdict where
  | new | duplicate | conflict
  deriving DecidableEq

/-- The remembered observations with the hashes of their contents, the one used last first. -/
structure HealthDedupe where
  capacity : ℕ
  order : List (String × String)
  nodupKeys : (order.map Prod.fst).Nodup

namespace HealthDedupe

def new (capacity : ℕ) : HealthDedupe := ⟨max 16 capacity, [], List.nodup_nil⟩

def key (o : JsonObject) : String :=
  (str o "tenant_id").getD "" ++ "|" ++ (str o "site_id").getD "" ++ "|" ++
    (str o "source_id").getD "" ++ "|" ++ (str o "observation_id").getD ""

def get? (d : HealthDedupe) (key : String) : Option String := d.order.lookup key

def moveFirst (key hash : String) (order : List (String × String)) : List (String × String) :=
  (key, hash) :: order.filter fun e => e.1 ≠ key

def evict (capacity : ℕ) (order : List (String × String)) : List (String × String) :=
  if capacity < order.length then order.dropLast else order

theorem nodup_moveFirst {key hash : String} {order : List (String × String)}
    (h : (order.map Prod.fst).Nodup) : ((moveFirst key hash order).map Prod.fst).Nodup := by
  rw [moveFirst, List.map_cons, List.nodup_cons]
  constructor
  · intro hmem
    obtain ⟨e, he, hkey⟩ := List.mem_map.mp hmem
    exact absurd hkey (by simpa using (List.mem_filter.mp he).2)
  · exact h.sublist (List.filter_sublist.map _)

theorem nodup_evict {capacity : ℕ} {order : List (String × String)}
    (h : (order.map Prod.fst).Nodup) : ((evict capacity order).map Prod.fst).Nodup := by
  rw [evict]
  split
  · exact h.sublist ((List.dropLast_sublist _).map _)
  · exact h

/-- `Check`, with the key of the observation and the hash of its content. -/
def check (d : HealthDedupe) (key hash : String) : HealthDedupe × DedupeVerdict :=
  match d.get? key with
  | some remembered =>
      (⟨d.capacity, moveFirst key remembered d.order, nodup_moveFirst d.nodupKeys⟩,
        if remembered = hash then .duplicate else .conflict)
  | none =>
      (⟨d.capacity, evict d.capacity (moveFirst key hash d.order),
        nodup_evict (nodup_moveFirst d.nodupKeys)⟩, .new)

variable {d : HealthDedupe} {key key' hash hash' : String}

theorem lookup_filter_ne {order : List (String × String)} (h : key' ≠ key) :
    (order.filter fun e => e.1 ≠ key).lookup key' = order.lookup key' := by
  induction order with
  | nil => rfl
  | cons e rest ih =>
    obtain ⟨k, v⟩ := e
    rw [List.filter_cons]
    by_cases hk : k = key
    · have hne : (key' == k) = false := by simpa [hk] using h
      rw [if_neg (by simp [hk]), ih, List.lookup_cons, hne]
    · rw [if_pos (by simpa using hk), List.lookup_cons, List.lookup_cons, ih]

theorem lookup_moveFirst {order : List (String × String)} :
    (moveFirst key hash order).lookup key' = if key' = key then some hash else order.lookup key' := by
  rw [moveFirst, List.lookup_cons]
  by_cases hkey : key' = key
  · simp [hkey]
  · have hne : (key' == key) = false := by simpa using hkey
    rw [hne, if_neg hkey, lookup_filter_ne hkey]

theorem lookup_append_of_some {l m : List (String × String)} (h : l.lookup key' = some hash') :
    (l ++ m).lookup key' = some hash' := by
  rw [List.lookup_append, h]
  rfl

theorem lookup_of_evict {capacity : ℕ} {order : List (String × String)}
    (h : (evict capacity order).lookup key' = some hash') : order.lookup key' = some hash' := by
  rw [evict] at h
  split at h
  · rename_i hlong
    have hne : order ≠ [] := by
      rintro rfl
      simp at hlong
    rw [← List.dropLast_append_getLast hne]
    exact lookup_append_of_some h
  · exact h

theorem verdict_check : (d.check key hash).2 = match d.get? key with
    | none => .new
    | some remembered => if remembered = hash then .duplicate else .conflict := by
  rw [check]
  split <;> rename_i h <;> simp [h]

theorem get?_of_check (h : (d.check key hash).1.get? key' = some hash') :
    d.get? key' = some hash' ∨ (key' = key ∧ hash' = hash ∧ d.get? key = none) := by
  rw [check] at h
  split at h
  · rename_i remembered hremembered
    left
    rw [get?, lookup_moveFirst] at h
    split at h
    · rename_i hkey
      rw [hkey, hremembered, h]
    · exact h
  · rename_i hnone
    have horder := lookup_of_evict h
    rw [lookup_moveFirst] at horder
    split at horder
    · rename_i hkey
      exact Or.inr ⟨hkey, (Option.some.inj horder).symm, hnone⟩
    · exact Or.inl horder

@[simp] theorem capacity_check : (d.check key hash).1.capacity = d.capacity := by
  rw [check]
  split <;> rfl

theorem length_moveFirst_le {order : List (String × String)} :
    (moveFirst key hash order).length ≤ order.length + 1 := by
  rw [moveFirst, List.length_cons]
  exact Nat.succ_le_succ (List.length_filter_le _ _)

theorem evict_of_length_le {capacity : ℕ} {order : List (String × String)}
    (h : order.length ≤ capacity) : evict capacity order = order := by
  rw [evict, if_neg (by omega)]

theorem length_check_le : (d.check key hash).1.order.length ≤ d.order.length + 1 := by
  rw [check]
  split
  · exact length_moveFirst_le
  · refine le_trans ?_ (@length_moveFirst_le key hash d.order)
    simp only [evict]
    split
    · rw [List.length_dropLast]
      omega
    · exact le_refl _

theorem get?_check_of_room (hroom : d.order.length < d.capacity)
    (h : d.get? key' = some hash') : (d.check key hash).1.get? key' = some hash' := by
  rw [check]
  split
  · rename_i remembered hremembered
    simp only [get?, lookup_moveFirst]
    split
    · rename_i hkey
      rw [← hremembered, ← hkey]
      exact h
    · exact h
  · rename_i hnone
    have hshort := @length_moveFirst_le key hash d.order
    simp only [get?, evict_of_length_le (by omega : (moveFirst key hash d.order).length ≤ d.capacity),
      lookup_moveFirst]
    split
    · rename_i hkey
      rw [← hkey, h] at hnone
      exact absurd hnone (by simp)
    · exact h

theorem get?_check_self (hroom : d.order.length < d.capacity) (h : d.get? key = none) :
    (d.check key hash).1.get? key = some hash := by
  rw [check]
  split
  · rename_i remembered hremembered
    rw [h] at hremembered
    exact absurd hremembered (by simp)
  · have hshort := @length_moveFirst_le key hash d.order
    simp only [get?, evict_of_length_le (by omega : (moveFirst key hash d.order).length ≤ d.capacity),
      lookup_moveFirst, if_true]

end HealthDedupe

end OpenBridge.HealthGateway
