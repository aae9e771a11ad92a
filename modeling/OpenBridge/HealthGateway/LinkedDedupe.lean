import OpenBridge.Foundation.Machine
import OpenBridge.Foundation.Recency
import OpenBridge.HealthGateway.HealthDedupe

/-!
# Health gateway: the two structures of the de-duplication

`HealthDedupe.Check` on its index and its linked list of nodes.  The pair simulates the least
recently used memory: the keys touched last, each with the hash of the call on which it entered.
-/

namespace OpenBridge.HealthGateway

open OpenBridge.Foundation

/-- A node of the linked list; nodes are told apart by their number. -/
structure DedupeNode where
  id : ℕ
  key : String
  hash : String
  deriving DecidableEq

def DedupeNode.entry (n : DedupeNode) : String × String := (n.key, n.hash)

/-- `_index` and `_order`, and the number of nodes made so far. -/
structure LinkedDedupe where
  capacity : ℕ
  index : Dict String DedupeNode
  order : List DedupeNode
  made : ℕ

namespace LinkedDedupe

def new (capacity : ℤ) : LinkedDedupe := ⟨(max 16 capacity).toNat, Dict.empty, [], 0⟩

def nodeOf (d : LinkedDedupe) (key hash : String) : DedupeNode := ⟨d.made, key, hash⟩

def add (d : LinkedDedupe) (key hash : String) : LinkedDedupe :=
  let order := d.nodeOf key hash :: d.order
  let index := d.index.set key (d.nodeOf key hash)
  match if d.capacity < order.length then order.getLast? else none with
  | some last => ⟨d.capacity, index.erase last.key, order.dropLast, d.made + 1⟩
  | none => ⟨d.capacity, index, order, d.made + 1⟩

/-- `Check`, with the key of the observation and the hash of its content.  `Remove` throws for a node
that is not in the list. -/
def check (d : LinkedDedupe) (key hash : String) : LinkedDedupe × Except String DedupeVerdict :=
  match d.index.get? key with
  | some node =>
      if node ∈ d.order then
        ({ d with order := node :: d.order.erase node },
          .ok (if node.hash = hash then .duplicate else .conflict))
      else (d, .error "InvalidOperationException")
  | none => (d.add key hash, .ok .new)

def step (d : LinkedDedupe) (call : String × String) :
    LinkedDedupe × List (Except String DedupeVerdict) :=
  ((d.check call.1 call.2).1, [(d.check call.1 call.2).2])

def after (capacity : ℤ) (calls : List (String × String)) : LinkedDedupe :=
  Machine.stateAfter step (new capacity) calls

/-! ## The index is the index of the list -/

/-- The index finds exactly the nodes of the list, under their keys, and no key has two. -/
structure Linked (d : LinkedDedupe) : Prop where
  found : ∀ k n, d.index.get? k = some n ↔ n ∈ d.order ∧ n.key = k
  nodup : (d.order.map DedupeNode.key).Nodup
  short : d.order.length ≤ d.capacity
  room : 0 < d.capacity

variable {d : LinkedDedupe} {key hash : String} {n : DedupeNode}

theorem linked_new (capacity : ℤ) : Linked (new capacity) := by
  constructor
  · intro k n
    simp [new]
  · exact List.nodup_nil
  · exact Nat.zero_le _
  · have h : (16 : ℤ) ≤ max 16 capacity := le_max_left _ _
    change 0 < (max 16 capacity).toNat
    omega

theorem Linked.eq_of_key (h : Linked d) {m : DedupeNode} (hn : n ∈ d.order) (hm : m ∈ d.order)
    (hkey : n.key = m.key) : n = m :=
  List.inj_on_of_nodup_map h.nodup hn hm hkey

theorem Linked.keys_iff (h : Linked d) (k : String) :
    k ∈ d.index.keys ↔ k ∈ d.order.map DedupeNode.key := by
  rw [Dict.mem_keys_iff_isSome, Option.isSome_iff_exists, List.mem_map]
  exact exists_congr fun n => h.found k n

theorem Linked.not_mem_keys (h : Linked d) (hnone : d.index.get? key = none) :
    ∀ n ∈ d.order, n.key ≠ key := by
  intro n hn hkey
  rw [(h.found key n).mpr ⟨hn, hkey⟩] at hnone
  cases hnone

theorem Linked.erase_eq (h : Linked d) (hn : n ∈ d.order) :
    d.order.erase n = d.order.filter fun m => m.key ≠ n.key := by
  rw [(h.nodup.of_map DedupeNode.key).erase_eq_filter]
  refine List.filter_congr fun m hm => ?_
  rw [Bool.eq_iff_iff, bne_iff_ne, decide_eq_true_eq, not_iff_not]
  exact ⟨congrArg DedupeNode.key, h.eq_of_key hm hn⟩

theorem Linked.moved (h : Linked d) (hn : n ∈ d.order) :
    Linked { d with order := n :: d.order.erase n } := by
  have hperm : d.order.Perm (n :: d.order.erase n) := List.perm_cons_erase hn
  constructor
  · intro k m
    rw [h.found k m, hperm.mem_iff]
  · exact (hperm.map DedupeNode.key).nodup_iff.mp h.nodup
  · exact le_of_eq_of_le hperm.length_eq.symm h.short
  · exact h.room

theorem Linked.found_add (h : Linked d) (hnone : d.index.get? key = none) (k : String)
    (m : DedupeNode) : (d.index.set key (d.nodeOf key hash)).get? k = some m ↔
      m ∈ d.nodeOf key hash :: d.order ∧ m.key = k := by
  have hfresh := h.not_mem_keys hnone
  rw [Dict.get?_set, List.mem_cons]
  split
  · rename_i heq
    subst heq
    rw [Option.some.injEq]
    constructor
    · rintro rfl
      exact ⟨.inl rfl, rfl⟩
    · rintro ⟨rfl | hm, hkey⟩
      · rfl
      · exact absurd hkey (hfresh m hm)
  · rename_i hne
    rw [h.found k m]
    constructor
    · exact fun hm => ⟨.inr hm.1, hm.2⟩
    · rintro ⟨rfl | hm, hkey⟩
      · exact absurd hkey.symm hne
      · exact ⟨hm, hkey⟩

theorem Linked.nodup_add (h : Linked d) (hnone : d.index.get? key = none) :
    ((d.nodeOf key hash :: d.order).map DedupeNode.key).Nodup := by
  rw [List.map_cons, List.nodup_cons]
  refine ⟨fun hmem => ?_, h.nodup⟩
  obtain ⟨m, hm, hkey⟩ := List.mem_map.mp hmem
  exact h.not_mem_keys hnone m hm hkey

theorem order_add : (d.add key hash).order =
    if d.capacity < (d.nodeOf key hash :: d.order).length then
      (d.nodeOf key hash :: d.order).dropLast else d.nodeOf key hash :: d.order := by
  unfold add
  dsimp only
  split
  · rename_i last hlast
    split at hlast
    · rename_i hlong
      exact (if_pos hlong).symm
    · cases hlast
  · rename_i hnone
    split at hnone
    · cases List.getLast?_eq_none_iff.mp hnone
    · rename_i hshort
      exact (if_neg hshort).symm

theorem Linked.linked_add (h : Linked d) (hnone : d.index.get? key = none) :
    Linked (d.add key hash) := by
  have hfound : ∀ k m, (d.index.set key (d.nodeOf key hash)).get? k = some m ↔
      m ∈ d.nodeOf key hash :: d.order ∧ m.key = k := h.found_add hnone
  have hnodup : ((d.nodeOf key hash :: d.order).map DedupeNode.key).Nodup := h.nodup_add hnone
  have hshort := h.short
  unfold add
  dsimp only
  split
  · rename_i last hlast
    have hlong : d.capacity < (d.nodeOf key hash :: d.order).length := by
      by_contra hle
      rw [if_neg hle] at hlast
      cases hlast
    rw [if_pos hlong] at hlast
    -- the list is what stays and the last node, whose key no other node has
    obtain ⟨rest, hsplit⟩ := List.getLast?_eq_some_iff.mp hlast
    have hdrop : (d.nodeOf key hash :: d.order).dropLast = rest := by
      rw [hsplit, List.dropLast_concat]
    rw [hsplit, List.map_append, List.nodup_append] at hnodup
    have hother : ∀ m ∈ rest, m.key ≠ last.key := fun m hm =>
      hnodup.2.2 _ (List.mem_map_of_mem hm) _ (List.mem_map_of_mem (List.mem_singleton_self last))
    rw [hdrop]
    constructor
    · intro k m
      change ((d.index.set key (d.nodeOf key hash)).erase last.key).get? k = some m ↔ _
      rw [Dict.get?_erase]
      split
      · rename_i heq
        subst heq
        refine iff_of_false (fun hsome => by cases hsome) ?_
        rintro ⟨hm, hkey⟩
        exact hother m hm hkey
      · rename_i hne
        rw [hfound k m, hsplit, List.mem_append, List.mem_singleton]
        constructor
        · rintro ⟨hm | rfl, hkey⟩
          · exact ⟨hm, hkey⟩
          · exact absurd hkey.symm hne
        · exact fun hm => ⟨.inl hm.1, hm.2⟩
    · exact hnodup.1
    · have hlength := congrArg List.length hsplit
      rw [List.length_cons, List.length_append, List.length_singleton] at hlength
      change rest.length ≤ d.capacity
      omega
    · exact h.room
  · rename_i hnothing
    have hle : ¬ d.capacity < (d.nodeOf key hash :: d.order).length := by
      intro hlong
      rw [if_pos hlong] at hnothing
      cases List.getLast?_eq_none_iff.mp hnothing
    exact ⟨hfound, hnodup, not_lt.mp hle, h.room⟩

/-! ## The pair simulates the list of remembered observations -/

structure Simulates (d : LinkedDedupe) (a : HealthDedupe) : Prop where
  linked : Linked d
  capacity : a.capacity = d.capacity
  order : a.order = d.order.map DedupeNode.entry

variable {a : HealthDedupe}

theorem map_fst_entry (l : List DedupeNode) :
    (l.map DedupeNode.entry).map Prod.fst = l.map DedupeNode.key := by
  rw [List.map_map]
  rfl

theorem Simulates.get?_eq (h : Simulates d a) (k : String) :
    a.get? k = (d.index.get? k).map DedupeNode.hash := by
  have hnodup : ((d.order.map DedupeNode.entry).map Prod.fst).Nodup := by
    rw [map_fst_entry]
    exact h.linked.nodup
  unfold HealthDedupe.get?
  rw [h.order]
  cases hfound : d.index.get? k with
  | none =>
    rw [Option.map_none, List.lookup_eq_none_iff]
    intro e he
    obtain ⟨n, hn, rfl⟩ := List.mem_map.mp he
    exact bne_iff_ne.mpr fun hkey => h.linked.not_mem_keys hfound n hn hkey.symm
  | some n =>
    obtain ⟨hn, rfl⟩ := (h.linked.found k n).mp hfound
    rw [Option.map_some, Dict.lookup_eq_some_iff hnodup]
    exact List.mem_map_of_mem hn

theorem map_filter_entry (k : String) (l : List DedupeNode) :
    (l.filter fun m => m.key ≠ k).map DedupeNode.entry =
      (l.map DedupeNode.entry).filter fun e => e.1 ≠ k := by
  rw [List.filter_map]
  rfl

theorem check_of_some {remembered : String} (h : a.get? key = some remembered) :
    a.check key hash = (⟨a.capacity, HealthDedupe.moveFirst key remembered a.order,
      HealthDedupe.nodup_moveFirst a.nodupKeys⟩,
        if remembered = hash then .duplicate else .conflict) := by
  unfold HealthDedupe.check
  split
  · rename_i other hother
    obtain rfl := Option.some.inj (h.symm.trans hother)
    rfl
  · rename_i hnone
    rw [h] at hnone
    cases hnone

theorem check_of_none (h : a.get? key = none) :
    a.check key hash = (⟨a.capacity, HealthDedupe.evict a.capacity
      (HealthDedupe.moveFirst key hash a.order),
      HealthDedupe.nodup_evict (HealthDedupe.nodup_moveFirst a.nodupKeys)⟩, .new) := by
  unfold HealthDedupe.check
  split
  · rename_i other hother
    rw [h] at hother
    cases hother
  · rfl

@[simp] theorem capacity_add : (d.add key hash).capacity = d.capacity := by
  unfold add
  dsimp only
  split <;> rfl

theorem Simulates.check (h : Simulates d a) (key hash : String) :
    Simulates (d.check key hash).1 (a.check key hash).1 ∧
      (d.check key hash).2 = .ok (a.check key hash).2 := by
  have hget := h.get?_eq key
  unfold LinkedDedupe.check
  cases hfound : d.index.get? key with
  | some n =>
    obtain ⟨hn, rfl⟩ := (h.linked.found key n).mp hfound
    rw [hfound, Option.map_some] at hget
    dsimp only
    rw [check_of_some hget, if_pos hn]
    refine ⟨⟨h.linked.moved hn, h.capacity, ?_⟩, rfl⟩
    change HealthDedupe.moveFirst n.key n.hash a.order =
      (n :: d.order.erase n).map DedupeNode.entry
    rw [List.map_cons, h.linked.erase_eq hn, map_filter_entry, ← h.order]
    rfl
  | none =>
    rw [hfound, Option.map_none] at hget
    dsimp only
    rw [check_of_none hget]
    have hall : d.order.filter (fun m => m.key ≠ key) = d.order :=
      List.filter_eq_self.mpr fun m hm => decide_eq_true (h.linked.not_mem_keys hfound m hm)
    have hmoved : HealthDedupe.moveFirst key hash a.order =
        (d.nodeOf key hash :: d.order).map DedupeNode.entry := by
      rw [List.map_cons, HealthDedupe.moveFirst, h.order, ← map_filter_entry, hall]
      rfl
    refine ⟨⟨h.linked.linked_add hfound, h.capacity.trans capacity_add.symm, ?_⟩, rfl⟩
    change HealthDedupe.evict a.capacity (HealthDedupe.moveFirst key hash a.order) = _
    rw [order_add, HealthDedupe.evict, hmoved, h.capacity, List.length_map]
    split
    · exact List.map_dropLast.symm
    · rfl

end LinkedDedupe

/-! ## The least recently used memory -/

namespace HealthDedupe

def recentKeys (capacity : ℕ) (past : List (String × String)) : List String :=
  Recency.recent id capacity [] (past.map Prod.fst)

/-- The hash a key entered with: that of its newest call that did not find it among the recent
keys. -/
def entered (capacity : ℕ) : List (String × String) → String → Option String
  | [], _ => none
  | call :: older, key =>
      if call.1 = key ∧ key ∉ recentKeys capacity older then some call.2
      else entered capacity older key

def lruVerdict (capacity : ℕ) (past : List (String × String)) (call : String × String) :
    DedupeVerdict :=
  if call.1 ∉ recentKeys capacity past then .new
  else if entered capacity past call.1 = some call.2 then .duplicate
  else .conflict

/-- The memory is the least recently used one of a history: its keys are those touched last, the last
one first, each with the hash that it entered with. -/
structure Lru (past : List (String × String)) (d : HealthDedupe) : Prop where
  room : 0 < d.capacity
  keys : (d.order.map Prod.fst).reverse = recentKeys d.capacity past
  hashes : ∀ key, key ∈ recentKeys d.capacity past → d.get? key = entered d.capacity past key

variable {past : List (String × String)} {d : HealthDedupe} {call : String × String}

theorem lru_new (capacity : ℕ) : Lru [] (new capacity) := by
  have hnone : recentKeys (new capacity).capacity [] = [] := Recency.recent_nil
  constructor
  · exact lt_of_lt_of_le (by decide) (le_max_left 16 capacity)
  · exact hnone.symm
  · intro key hkey
    rw [hnone] at hkey
    cases hkey

theorem Lru.mem_iff (h : Lru past d) (key : String) :
    key ∈ recentKeys d.capacity past ↔ (d.get? key).isSome = true := by
  rw [← h.keys, List.mem_reverse]
  exact Dict.mem_keys_iff_isSome (d := ⟨d.order, d.nodupKeys⟩)

theorem Lru.verdict (h : Lru past d) (call : String × String) :
    (d.check call.1 call.2).2 = lruVerdict d.capacity past call := by
  have hmem := h.mem_iff call.1
  rw [verdict_check]
  unfold lruVerdict
  cases hget : d.get? call.1 with
  | none =>
    rw [hget] at hmem
    exact (if_pos fun hm => by cases hmem.mp hm).symm
  | some remembered =>
    rw [hget] at hmem
    have hm := hmem.mpr rfl
    have hentered := h.hashes call.1 hm
    rw [hget] at hentered
    rw [if_neg (not_not.mpr hm), ← hentered]
    dsimp only
    by_cases hsame : remembered = call.2
    · rw [if_pos hsame, if_pos (congrArg some hsame)]
    · rw [if_neg hsame, if_neg fun heq => hsame (Option.some.inj heq)]

theorem Lru.length_le (h : Lru past d) : d.order.length ≤ d.capacity := by
  have hlength := congrArg List.length h.keys
  rw [List.length_reverse, List.length_map] at hlength
  rw [hlength]
  exact Recency.length_recent_le

theorem map_evict_moveFirst {capacity : ℕ} {key hash : String} {order : List (String × String)}
    (h : order.length ≤ capacity) :
    ((evict capacity (moveFirst key hash order)).map Prod.fst).reverse =
      Recency.touch id capacity (order.map Prod.fst).reverse key := by
  have hfilter : ((moveFirst key hash order).map Prod.fst).reverse =
      ((order.map Prod.fst).reverse.filter fun k => k ≠ key) ++ [key] := by
    rw [moveFirst, List.map_cons, List.reverse_cons, List.filter_reverse, List.filter_map]
    rfl
  have hlength : (moveFirst key hash order).length ≤ capacity + 1 :=
    le_trans length_moveFirst_le (Nat.succ_le_succ h)
  have hreverse : ((moveFirst key hash order).map Prod.fst).reverse.length =
      (moveFirst key hash order).length := by
    rw [List.length_reverse, List.length_map]
  unfold Recency.touch
  simp only [id]
  rw [← hfilter, Recency.lastN, hreverse]
  unfold evict
  split
  · have hone : (moveFirst key hash order).length - capacity = 1 := by omega
    rw [hone, List.drop_one, List.tail_reverse, List.map_dropLast]
  · have hzero : (moveFirst key hash order).length - capacity = 0 := by omega
    rw [hzero, List.drop_zero]

theorem Lru.order_check (h : Lru past d) (call : String × String) :
    ∃ hash, (d.check call.1 call.2).1.order =
      evict d.capacity (moveFirst call.1 hash d.order) := by
  cases hget : d.get? call.1 with
  | none => exact ⟨call.2, by rw [LinkedDedupe.check_of_none hget]⟩
  | some remembered =>
    -- the key was in the list, so the list does not grow
    have hmem : (call.1, remembered) ∈ d.order := (Dict.lookup_eq_some_iff d.nodupKeys).mp hget
    have hfilter : (d.order.filter fun e => e.1 ≠ call.1).length < d.order.length :=
      List.length_filter_lt_length_iff_exists.mpr ⟨_, hmem, by simp⟩
    have hlength : (moveFirst call.1 remembered d.order).length ≤ d.capacity := by
      rw [moveFirst, List.length_cons]
      exact le_trans (Nat.succ_le_of_lt hfilter) h.length_le
    refine ⟨remembered, ?_⟩
    rw [LinkedDedupe.check_of_some hget, evict_of_length_le hlength]

theorem Lru.check (h : Lru past d) (call : String × String) :
    Lru (call :: past) (d.check call.1 call.2).1 := by
  have hroom := h.room
  have hcapacity : (d.check call.1 call.2).1.capacity = d.capacity := capacity_check
  obtain ⟨n, hn⟩ := Nat.exists_eq_succ_of_ne_zero hroom.ne'
  have hkeys : ((d.check call.1 call.2).1.order.map Prod.fst).reverse =
      recentKeys d.capacity (call :: past) := by
    obtain ⟨hash, horder⟩ := h.order_check call
    rw [horder, map_evict_moveFirst h.length_le, h.keys]
    unfold recentKeys
    rw [hn]
    exact Recency.touch_recent
  constructor
  · rw [hcapacity]
    exact hroom
  · rw [hcapacity]
    exact hkeys
  · intro key hkey
    rw [hcapacity] at hkey ⊢
    rw [← hkeys, List.mem_reverse] at hkey
    obtain ⟨hash, hget⟩ := Option.isSome_iff_exists.mp
      (Dict.mem_keys_iff_isSome (d := ⟨_, (d.check call.1 call.2).1.nodupKeys⟩).mp hkey)
    have hget : (d.check call.1 call.2).1.get? key = some hash := hget
    rw [hget]
    unfold entered
    rcases get?_of_check hget with hold | ⟨rfl, rfl, hnone⟩
    · have hmem := (h.mem_iff key).mpr (by rw [hold]; rfl)
      rw [if_neg fun hnew => hnew.2 hmem, ← h.hashes key hmem, hold]
    · have hnot : call.1 ∉ recentKeys d.capacity past := by
        rw [h.mem_iff call.1, hnone]
        exact Bool.false_ne_true
      rw [if_pos ⟨rfl, hnot⟩]

end HealthDedupe

/-! ## Bounded de-duplication -/

namespace LinkedDedupe

theorem exists_lru (capacity : ℤ) (calls : List (String × String)) :
    ∃ a : HealthDedupe, Simulates (after capacity calls) a ∧ HealthDedupe.Lru calls.reverse a ∧
      a.capacity = (max 16 capacity).toNat := by
  refine Machine.history_invariant (fun calls d => ∃ a, Simulates d a ∧
    HealthDedupe.Lru calls.reverse a ∧ a.capacity = (max 16 capacity).toNat) ?_ ?_ calls
  · have hmax : max 16 (max 16 capacity).toNat = (max 16 capacity).toNat := by omega
    exact ⟨.new (max 16 capacity).toNat, ⟨linked_new capacity, hmax, rfl⟩, HealthDedupe.lru_new _,
      hmax⟩
  · rintro pre call ⟨a, hsimulates, hlru, hcapacity⟩
    refine ⟨(a.check call.1 call.2).1, (hsimulates.check call.1 call.2).1, ?_, ?_⟩
    · rw [List.reverse_concat]
      exact hlru.check call
    · rw [HealthDedupe.capacity_check, hcapacity]

/-- The de-duplication is a least recently used memory of that many keys: the index and the list hold
the same keys, none of them twice and no more than that, and the verdict of the next call is that of
the memory. -/
structure IsLru (bound : ℕ) (calls : List (String × String)) (d : LinkedDedupe) : Prop where
  keys : ∀ k, k ∈ d.index.keys ↔ k ∈ d.order.map DedupeNode.key
  index_nodup : d.index.keys.Nodup
  order_nodup : (d.order.map DedupeNode.key).Nodup
  index_length : d.index.keys.length ≤ bound
  order_length : d.order.length ≤ bound
  verdict : ∀ call : String × String,
    (d.check call.1 call.2).2 = .ok (HealthDedupe.lruVerdict bound calls.reverse call)

/-- **Bounded de-duplication is a least recently used memory**, of the capacity asked for or of 16
keys, whichever is more. -/
theorem check_isLru (capacity : ℤ) (calls : List (String × String)) :
    IsLru (max 16 capacity).toNat calls (after capacity calls) := by
  obtain ⟨a, hsimulates, hlru, hcapacity⟩ := exists_lru capacity calls
  have hlinked := hsimulates.linked
  have hsame : (after capacity calls).index.keys.Perm
      ((after capacity calls).order.map DedupeNode.key) :=
    (List.perm_ext_iff_of_nodup (Dict.keys_nodup _) hlinked.nodup).mpr hlinked.keys_iff
  have hshort : (after capacity calls).order.length ≤ (max 16 capacity).toNat := by
    rw [← hcapacity, hsimulates.capacity]
    exact hlinked.short
  constructor
  · exact hlinked.keys_iff
  · exact Dict.keys_nodup _
  · exact hlinked.nodup
  · rw [hsame.length_eq, List.length_map]
    exact hshort
  · exact hshort
  · intro call
    rw [(hsimulates.check call.1 call.2).2, hlru.verdict call, hcapacity]

/-- A capacity of one is raised to 16: two keys are held, and the first of them is still a
duplicate. -/
theorem capacity_one_holds_two :
    ¬ IsLru 1 [("a", "1"), ("b", "1")] (after 1 [("a", "1"), ("b", "1")]) := by
  intro h
  exact absurd h.order_length (by decide)

end LinkedDedupe

end OpenBridge.HealthGateway
