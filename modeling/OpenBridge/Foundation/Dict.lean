import Mathlib.Data.List.Nodup
import Mathlib.Data.List.Induction
import Mathlib.Data.List.Lookmap

/-!
# Foundation: insertion-ordered dictionaries

The hash maps of the modelled services (`Dictionary`, `LinkedHashMap`, `MapState`) are read by key
and walked in insertion order.  `Dict` is that data type: a list of pairs whose keys are pairwise
distinct.  The distinctness of the keys is a field, so no operation can produce a dictionary with
two values for one key.
-/

namespace OpenBridge.Foundation

universe u v w

/-- A dictionary that remembers the order in which its keys were first set. -/
structure Dict (κ : Type u) (ν : Type v) where
  entries : List (κ × ν)
  nodupKeys : (entries.map Prod.fst).Nodup

namespace Dict

variable {κ : Type u} {ν : Type v} {μ : Type w}

def keys (d : Dict κ ν) : List κ := d.entries.map Prod.fst

def values (d : Dict κ ν) : List ν := d.entries.map Prod.snd

def empty : Dict κ ν := ⟨[], by simp⟩

instance : Inhabited (Dict κ ν) := ⟨empty⟩

@[simp] theorem entries_empty : (empty : Dict κ ν).entries = [] := rfl
@[simp] theorem keys_empty : (empty : Dict κ ν).keys = [] := rfl
@[simp] theorem values_empty : (empty : Dict κ ν).values = [] := rfl

@[ext] theorem ext {d e : Dict κ ν} (h : d.entries = e.entries) : d = e := by
  cases d; cases e; simp_all

instance [DecidableEq κ] [DecidableEq ν] : DecidableEq (Dict κ ν) := fun d e =>
  decidable_of_iff (d.entries = e.entries) ⟨ext, congrArg entries⟩

theorem keys_nodup (d : Dict κ ν) : d.keys.Nodup := d.nodupKeys

section Lookup

variable [DecidableEq κ]

/-- Replace the value of `k` where it stands, or append the pair. -/
def setEntry (k : κ) (v : ν) : List (κ × ν) → List (κ × ν)
  | [] => [(k, v)]
  | e :: rest => if e.1 = k then (k, v) :: rest else e :: setEntry k v rest

theorem map_fst_setEntry (k : κ) (v : ν) (es : List (κ × ν)) :
    (setEntry k v es).map Prod.fst =
      if k ∈ es.map Prod.fst then es.map Prod.fst else es.map Prod.fst ++ [k] := by
  induction es with
  | nil => simp [setEntry]
  | cons e rest ih =>
    by_cases hk : e.1 = k
    · simp [setEntry, hk]
    · have hk' : ¬ k = e.1 := fun h => hk h.symm
      by_cases hm : k ∈ rest.map Prod.fst
      · simp only [setEntry, hk, if_false, List.map_cons, ih, hm, if_true, List.mem_cons,
          or_true]
      · simp only [setEntry, hk, if_false, List.map_cons, ih, hm, List.mem_cons, hk', or_self,
          List.cons_append]

theorem nodup_setEntry {k : κ} {v : ν} {es : List (κ × ν)} (h : (es.map Prod.fst).Nodup) :
    ((setEntry k v es).map Prod.fst).Nodup := by
  rw [map_fst_setEntry]
  split
  · exact h
  · rename_i hk
    exact h.append (by simp) (by simpa using hk)

def get? (d : Dict κ ν) (k : κ) : Option ν := d.entries.lookup k

def set (d : Dict κ ν) (k : κ) (v : ν) : Dict κ ν :=
  ⟨setEntry k v d.entries, nodup_setEntry d.nodupKeys⟩

def erase (d : Dict κ ν) (k : κ) : Dict κ ν :=
  ⟨d.entries.filter (fun e => e.1 ≠ k),
    d.nodupKeys.sublist (List.Sublist.map _ List.filter_sublist)⟩

/-- Keep the pairs that satisfy `p`. -/
def filter (p : κ × ν → Bool) (d : Dict κ ν) : Dict κ ν :=
  ⟨d.entries.filter p, d.nodupKeys.sublist (List.Sublist.map _ List.filter_sublist)⟩

def contains (d : Dict κ ν) (k : κ) : Bool := (d.get? k).isSome

@[simp] theorem get?_empty (k : κ) : (empty : Dict κ ν).get? k = none := rfl

theorem lookup_setEntry_self (k : κ) (v : ν) (es : List (κ × ν)) :
    (setEntry k v es).lookup k = some v := by
  induction es with
  | nil => simp [setEntry]
  | cons e rest ih =>
    obtain ⟨k₀, v₀⟩ := e
    by_cases hk : k₀ = k
    · simp [setEntry, hk]
    · have hb : (k == k₀) = false := beq_false_of_ne fun h => hk h.symm
      simp [setEntry, hk, List.lookup_cons, hb, ih]

theorem lookup_setEntry_of_ne {k k' : κ} (v : ν) (es : List (κ × ν)) (h : k' ≠ k) :
    (setEntry k v es).lookup k' = es.lookup k' := by
  have hb : (k' == k) = false := beq_false_of_ne h
  induction es with
  | nil => simp [setEntry, List.lookup_cons, hb]
  | cons e rest ih =>
    obtain ⟨k₀, v₀⟩ := e
    by_cases hk : k₀ = k
    · simp [setEntry, hk, List.lookup_cons, hb]
    · simp only [setEntry, hk, if_false, List.lookup_cons, ih]

@[simp] theorem get?_set_self (d : Dict κ ν) (k : κ) (v : ν) : (d.set k v).get? k = some v :=
  lookup_setEntry_self k v d.entries

theorem get?_set_of_ne (d : Dict κ ν) {k k' : κ} (v : ν) (h : k' ≠ k) :
    (d.set k v).get? k' = d.get? k' :=
  lookup_setEntry_of_ne v d.entries h

theorem get?_set (d : Dict κ ν) (k k' : κ) (v : ν) :
    (d.set k v).get? k' = if k' = k then some v else d.get? k' := by
  by_cases h : k' = k
  · subst h; simp
  · rw [get?_set_of_ne d v h, if_neg h]

theorem setEntry_setEntry (k : κ) (v w : ν) (es : List (κ × ν)) :
    setEntry k w (setEntry k v es) = setEntry k w es := by
  induction es with
  | nil => simp [setEntry]
  | cons e rest ih =>
    by_cases hk : e.1 = k
    · simp [setEntry, hk]
    · simp [setEntry, hk, ih]

theorem set_set (d : Dict κ ν) (k : κ) (v w : ν) : (d.set k v).set k w = d.set k w :=
  ext (setEntry_setEntry k v w d.entries)

theorem keys_set (d : Dict κ ν) (k : κ) (v : ν) :
    (d.set k v).keys = if k ∈ d.keys then d.keys else d.keys ++ [k] :=
  map_fst_setEntry k v d.entries

theorem mem_keys_set {d : Dict κ ν} {k k' : κ} {v : ν} :
    k' ∈ (d.set k v).keys ↔ k' = k ∨ k' ∈ d.keys := by
  rw [keys_set]
  split
  · rename_i hk
    constructor
    · exact Or.inr
    · rintro (rfl | h)
      · exact hk
      · exact h
  · simp [or_comm]

theorem lookup_eq_some_iff {es : List (κ × ν)} (hn : (es.map Prod.fst).Nodup) {k : κ} {v : ν} :
    es.lookup k = some v ↔ (k, v) ∈ es := by
  induction es with
  | nil => simp
  | cons e rest ih =>
    obtain ⟨k₀, v₀⟩ := e
    simp only [List.map_cons, List.nodup_cons] at hn
    by_cases hk : k = k₀
    · subst hk
      have hnot : (k, v) ∉ rest := fun h => hn.1 (List.mem_map.mpr ⟨(k, v), h, rfl⟩)
      simp [hnot, eq_comm]
    · have hb : (k == k₀) = false := beq_false_of_ne hk
      simp [List.lookup_cons, hb, ih hn.2, hk]

theorem lookup_reverse {es : List (κ × ν)} (hn : (es.map Prod.fst).Nodup) (k : κ) :
    es.reverse.lookup k = es.lookup k := by
  have hn' : (es.reverse.map Prod.fst).Nodup := by
    rw [List.map_reverse]
    exact List.nodup_reverse.mpr hn
  ext v
  rw [lookup_eq_some_iff hn', lookup_eq_some_iff hn, List.mem_reverse]

theorem get?_eq_some_iff {d : Dict κ ν} {k : κ} {v : ν} :
    d.get? k = some v ↔ (k, v) ∈ d.entries :=
  lookup_eq_some_iff d.nodupKeys

theorem get?_eq_none_iff {d : Dict κ ν} {k : κ} : d.get? k = none ↔ k ∉ d.keys := by
  constructor
  · intro h hk
    obtain ⟨e, he, rfl⟩ := List.mem_map.mp hk
    rw [get?_eq_some_iff.mpr (show (e.1, e.2) ∈ d.entries from he)] at h
    exact absurd h (by simp)
  · intro h
    cases hv : d.get? k with
    | none => rfl
    | some v => exact absurd (List.mem_map.mpr ⟨(k, v), get?_eq_some_iff.mp hv, rfl⟩) h

theorem mem_keys_iff_isSome {d : Dict κ ν} {k : κ} : k ∈ d.keys ↔ (d.get? k).isSome := by
  rw [Option.isSome_iff_ne_none, Ne, get?_eq_none_iff, not_not]

theorem get?_erase (d : Dict κ ν) (k k' : κ) :
    (d.erase k).get? k' = if k' = k then none else d.get? k' := by
  by_cases h : k' = k
  · subst h
    rw [if_pos rfl, get?_eq_none_iff]
    simp [erase, keys]
  · rw [if_neg h]
    cases hv : d.get? k' with
    | none =>
      rw [get?_eq_none_iff] at hv ⊢
      exact fun hk => hv (List.Sublist.subset (List.Sublist.map _ List.filter_sublist) hk)
    | some v =>
      rw [get?_eq_some_iff] at hv ⊢
      simp [erase, hv, h]

theorem get?_filter (p : κ × ν → Bool) (d : Dict κ ν) (k : κ) :
    (d.filter p).get? k = (d.get? k).filter fun v => p (k, v) := by
  ext v
  rw [get?_eq_some_iff, Option.filter_eq_some_iff, get?_eq_some_iff]
  exact List.mem_filter

theorem setEntry_of_not_mem {k : κ} {v : ν} {es : List (κ × ν)} (h : k ∉ es.map Prod.fst) :
    setEntry k v es = es ++ [(k, v)] := by
  induction es with
  | nil => rfl
  | cons e rest ih =>
    simp only [List.map_cons, List.mem_cons, not_or] at h
    simp only [setEntry, if_neg (Ne.symm h.1), ih h.2, List.cons_append]

theorem entries_set_of_not_mem {d : Dict κ ν} {k : κ} {v : ν} (h : k ∉ d.keys) :
    (d.set k v).entries = d.entries ++ [(k, v)] :=
  setEntry_of_not_mem h

theorem mem_setEntry {k : κ} {v : ν} {e : κ × ν} {es : List (κ × ν)} (h : e ∈ setEntry k v es) :
    e = (k, v) ∨ e ∈ es := by
  induction es with
  | nil => simpa [setEntry] using h
  | cons a rest ih =>
    simp only [setEntry] at h
    split at h
    · exact (List.mem_cons.mp h).imp_right (List.mem_cons_of_mem _)
    · rcases List.mem_cons.mp h with rfl | h
      · exact Or.inr (List.mem_cons_self ..)
      · exact (ih h).imp_right (List.mem_cons_of_mem _)

theorem mem_entries_set {d : Dict κ ν} {k : κ} {v : ν} {e : κ × ν}
    (h : e ∈ (d.set k v).entries) : e = (k, v) ∨ e ∈ d.entries :=
  mem_setEntry h

theorem entries_foldl_set {p : κ × ν → Prop} [DecidablePred p] {es : List (κ × ν)} {d : Dict κ ν}
    (hn : (es.map Prod.fst).Nodup) (hd : ∀ e ∈ es, e.1 ∉ d.keys) :
    (es.foldl (fun d e => if p e then d.set e.1 e.2 else d) d).entries =
      d.entries ++ es.filter p := by
  induction es generalizing d with
  | nil => simp
  | cons e rest ih =>
    rw [List.map_cons, List.nodup_cons] at hn
    have hrest := fun e' he' => hd e' (List.mem_cons_of_mem _ he')
    rw [List.foldl_cons]
    split
    · rename_i hp
      rw [ih hn.2, entries_set_of_not_mem (hd e List.mem_cons_self), List.filter_cons,
        if_pos (decide_eq_true hp), List.append_assoc]
      · rfl
      · intro e' he' hkey
        rcases mem_keys_set.mp hkey with heq | hold
        · exact hn.1 (heq ▸ List.mem_map_of_mem he')
        · exact hrest e' he' hold
    · rename_i hp
      rw [ih hn.2 hrest, List.filter_cons, if_neg (by simpa using hp)]

theorem get?_foldl_set {p : κ × ν → Prop} [DecidablePred p] (es : List (κ × ν)) (d : Dict κ ν)
    (k : κ) : (es.foldl (fun d e => if p e then d.set e.1 e.2 else d) d).get? k =
      (((es.filter p).filter (·.1 = k)).getLast?.map Prod.snd <|> d.get? k) := by
  induction es using List.reverseRecOn with
  | nil => rfl
  | append_singleton init e ih =>
    rw [List.foldl_append, List.foldl_cons, List.foldl_nil, List.filter_append, List.filter_append]
    split
    · rename_i hp
      rw [List.filter_cons, if_pos (decide_eq_true hp), List.filter_nil, get?_set]
      split
      · rename_i hk
        rw [List.filter_cons, if_pos (decide_eq_true hk.symm), List.filter_nil,
          List.getLast?_concat]
        rfl
      · rename_i hk
        rw [List.filter_cons, if_neg (by simpa using Ne.symm hk), List.filter_nil,
          List.append_nil, ih]
    · rename_i hp
      rw [List.filter_cons, if_neg (by simpa using hp), List.filter_nil, List.filter_nil,
        List.append_nil, ih]

end Lookup

/-! ## Walking a dictionary -/

def mapValues (f : ν → μ) (d : Dict κ ν) : Dict κ μ :=
  ⟨d.entries.map (fun e => (e.1, f e.2)), by
    simpa [List.map_map, Function.comp_def] using d.nodupKeys⟩

@[simp] theorem entries_mapValues (f : ν → μ) (d : Dict κ ν) :
    (d.mapValues f).entries = d.entries.map (fun e => (e.1, f e.2)) := rfl

@[simp] theorem keys_mapValues (f : ν → μ) (d : Dict κ ν) : (d.mapValues f).keys = d.keys := by
  simp [keys, List.map_map, Function.comp_def]

@[simp] theorem get?_mapValues [DecidableEq κ] (f : ν → μ) (d : Dict κ ν) (k : κ) :
    (d.mapValues f).get? k = (d.get? k).map f := by
  simp only [get?, entries_mapValues]
  induction d.entries with
  | nil => simp
  | cons e rest ih =>
    obtain ⟨k₀, v₀⟩ := e
    simp only [List.map_cons, List.lookup_cons, ih]
    split <;> rfl

def mapWithKey (f : κ → ν → μ) (d : Dict κ ν) : Dict κ μ :=
  ⟨d.entries.map (fun e => (e.1, f e.1 e.2)), by
    simpa [List.map_map, Function.comp_def] using d.nodupKeys⟩

@[simp] theorem get?_mapWithKey [DecidableEq κ] (f : κ → ν → μ) (d : Dict κ ν) (k : κ) :
    (d.mapWithKey f).get? k = (d.get? k).map (f k) := by
  simp only [get?, mapWithKey]
  induction d.entries with
  | nil => simp
  | cons e rest ih =>
    obtain ⟨k₀, v₀⟩ := e
    by_cases h : k = k₀
    · subst h
      simp
    · have hb : (k == k₀) = false := beq_false_of_ne h
      simp [List.lookup_cons, hb, ih]

theorem filter_flatMap_entries [DecidableEq κ] (d : Dict κ ν) {f : κ × ν → List μ} {p : μ → Bool}
    {k : κ} (hp : ∀ e ∈ d.entries, ∀ b ∈ f e, p b = decide (e.1 = k)) :
    (d.entries.flatMap f).filter p = match d.get? k with
      | none => []
      | some v => f (k, v) := by
  obtain ⟨es, hn⟩ := d
  simp only [get?] at hp ⊢
  induction es with
  | nil => rfl
  | cons e rest ih =>
    obtain ⟨k₀, v₀⟩ := e
    simp only [List.map_cons, List.nodup_cons] at hn
    have hrest := ih hn.2 fun e he => hp e (List.mem_cons_of_mem _ he)
    have hhead : ∀ b ∈ f (k₀, v₀), p b = decide (k₀ = k) := hp (k₀, v₀) List.mem_cons_self
    rw [List.flatMap_cons, List.filter_append, hrest]
    by_cases h : k = k₀
    · subst h
      have hnone : rest.lookup k = none := by
        cases hv : rest.lookup k with
        | none => rfl
        | some v =>
          have hmem := (lookup_eq_some_iff hn.2).mp hv
          exact absurd (List.mem_map.mpr ⟨(k, v), hmem, rfl⟩) hn.1
      rw [hnone, List.filter_eq_self.mpr fun b hb => by rw [hhead b hb]; simp]
      simp
    · have hb : (k == k₀) = false := beq_false_of_ne h
      have hnil : (f (k₀, v₀)).filter p = [] := by
        refine List.filter_eq_nil_iff.mpr fun b hb' => ?_
        rw [hhead b hb']
        simpa using fun h' => h h'.symm
      rw [hnil, List.nil_append, List.lookup_cons, hb]

theorem filterMap_eq_nil_of_not_mem [DecidableEq κ] {f : ν → Option μ} {p : μ → Bool} {k : κ}
    {es : List (κ × ν)} (hk : k ∉ es.map Prod.fst)
    (hp : ∀ e ∈ es, ∀ b ∈ f e.2, p b = decide (e.1 = k)) :
    ((es.map Prod.snd).filterMap f).filter p = [] := by
  rw [List.filter_eq_nil_iff]
  intro b hb
  obtain ⟨v, hv, hfv⟩ := List.mem_filterMap.mp hb
  obtain ⟨e, he, rfl⟩ := List.mem_map.mp hv
  rw [hp e he b hfv, decide_eq_true_eq]
  rintro rfl
  exact hk (List.mem_map.mpr ⟨e, he, rfl⟩)

theorem values_filterMap_filter [DecidableEq κ] (d : Dict κ ν) {f : ν → Option μ} {p : μ → Bool}
    {k : κ} (hp : ∀ e ∈ d.entries, ∀ b ∈ f e.2, p b = decide (e.1 = k)) :
    (d.values.filterMap f).filter p = ((d.get? k).bind f).toList := by
  obtain ⟨es, hn⟩ := d
  simp only [values, get?] at hp ⊢
  induction es with
  | nil => rfl
  | cons e rest ih =>
    obtain ⟨k₀, v₀⟩ := e
    simp only [List.map_cons, List.nodup_cons] at hn
    have hrest : ∀ e ∈ rest, ∀ b ∈ f e.2, p b = decide (e.1 = k) :=
      fun e he => hp e (List.mem_cons_of_mem _ he)
    have hhead : ∀ b ∈ f v₀, p b = decide (k₀ = k) := hp (k₀, v₀) (List.mem_cons_self ..)
    rw [List.map_cons, List.lookup_cons, List.filterMap_cons]
    by_cases hk : k₀ = k
    · subst hk
      have hnil := filterMap_eq_nil_of_not_mem hn.1 hrest
      cases hv : f v₀ with
      | none => simp only [hnil, beq_self_eq_true, Option.bind_some, hv, Option.toList_none]
      | some b =>
        rw [List.filter_cons, hhead b hv, hnil]
        simp [hv]
    · have hb : (k == k₀) = false := beq_false_of_ne fun h => hk h.symm
      rw [hb, ← ih hn.2 hrest]
      cases hv : f v₀ with
      | none => rfl
      | some b =>
        rw [List.filter_cons, hhead b hv]
        simp [hk]

/-! ## Related dictionaries -/

section Related

variable {ν' : Type v} {μ' : Type w}

/-- Two dictionaries with the same keys in the same order, whose values are related. -/
def Rel (R : ν → μ → Prop) (d : Dict κ ν) (e : Dict κ μ) : Prop :=
  List.Forall₂ (fun a b => a.1 = b.1 ∧ R a.2 b.2) d.entries e.entries

theorem Rel.refl {R : ν → ν → Prop} (hR : ∀ v, R v v) (d : Dict κ ν) : Rel R d d :=
  List.forall₂_same.mpr fun e _ => ⟨rfl, hR e.2⟩

theorem Rel.eq {d e : Dict κ ν} (h : Rel (· = ·) d e) : d = e := by
  have hprod : (fun a b : κ × ν => a.1 = b.1 ∧ a.2 = b.2) = (· = ·) := by
    funext a b
    exact propext Prod.ext_iff.symm
  unfold Rel at h
  rw [hprod, List.forall₂_eq_eq_eq] at h
  exact ext h

theorem Rel.values {R : ν → μ → Prop} {d : Dict κ ν} {e : Dict κ μ} (h : Rel R d e) :
    List.Forall₂ R d.values e.values := by
  simp only [Dict.values, List.forall₂_map_left_iff, List.forall₂_map_right_iff]
  exact h.imp fun _ _ hab => hab.2

theorem Rel.mapValues {R : ν → μ → Prop} {S : ν' → μ' → Prop} {f : ν → ν'} {g : μ → μ'}
    {d : Dict κ ν} {e : Dict κ μ} (h : Rel R d e) (hfg : ∀ a b, R a b → S (f a) (g b)) :
    Rel S (d.mapValues f) (e.mapValues g) := by
  simp only [Rel, entries_mapValues, List.forall₂_map_left_iff, List.forall₂_map_right_iff]
  exact h.imp fun a b hab => ⟨hab.1, hfg a.2 b.2 hab.2⟩

theorem rel_mapValues_right {R : ν → μ → Prop} {f : ν → μ} {d : Dict κ ν}
    (h : ∀ e ∈ d.entries, R e.2 (f e.2)) : Rel R d (d.mapValues f) := by
  simp only [Rel, entries_mapValues, List.forall₂_map_right_iff]
  exact List.forall₂_same.mpr fun e he => ⟨rfl, h e he⟩

variable [DecidableEq κ]

theorem forall₂_lookup {R : ν → μ → Prop} {ds : List (κ × ν)} {es : List (κ × μ)}
    (h : List.Forall₂ (fun a b => a.1 = b.1 ∧ R a.2 b.2) ds es) (k : κ) :
    (ds.lookup k = none ∧ es.lookup k = none) ∨
      ∃ v w, ds.lookup k = some v ∧ es.lookup k = some w ∧ R v w := by
  induction h with
  | nil => exact Or.inl ⟨rfl, rfl⟩
  | @cons a b as bs hab _ ih =>
    obtain ⟨ka, va⟩ := a
    obtain ⟨kb, vb⟩ := b
    obtain ⟨rfl, hR⟩ := hab
    simp only [List.lookup_cons]
    split
    · exact Or.inr ⟨va, vb, rfl, rfl, hR⟩
    · exact ih

theorem Rel.get? {R : ν → μ → Prop} {d : Dict κ ν} {e : Dict κ μ} (h : Rel R d e) (k : κ) :
    (d.get? k = none ∧ e.get? k = none) ∨
      ∃ v w, d.get? k = some v ∧ e.get? k = some w ∧ R v w :=
  forall₂_lookup h k

theorem forall₂_setEntry {R : ν → μ → Prop} {ds : List (κ × ν)} {es : List (κ × μ)} {k : κ}
    {v : ν} {w : μ} (h : List.Forall₂ (fun a b => a.1 = b.1 ∧ R a.2 b.2) ds es) (hvw : R v w) :
    List.Forall₂ (fun a b => a.1 = b.1 ∧ R a.2 b.2) (setEntry k v ds) (setEntry k w es) := by
  induction h with
  | nil => exact List.Forall₂.cons ⟨rfl, hvw⟩ List.Forall₂.nil
  | @cons a b as bs hab hrest ih =>
    simp only [setEntry, ← hab.1]
    split
    · exact List.Forall₂.cons ⟨rfl, hvw⟩ hrest
    · exact List.Forall₂.cons hab ih

theorem Rel.set {R : ν → μ → Prop} {d : Dict κ ν} {e : Dict κ μ} {v : ν} {w : μ}
    (h : Rel R d e) (k : κ) (hvw : R v w) : Rel R (d.set k v) (e.set k w) :=
  forall₂_setEntry h hvw

end Related

end Dict

end OpenBridge.Foundation
