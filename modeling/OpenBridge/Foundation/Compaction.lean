import Mathlib.Data.List.Basic

/-!
# Foundation: log compaction

A log of keyed records keeps, when it is compacted, the latest record of each key in the order of
the log.
-/

namespace OpenBridge.Foundation

universe u v

namespace Compaction

variable {α : Type u} {κ : Type v} [DecidableEq κ] (key : α → κ)

def compact : List α → List α
  | [] => []
  | a :: rest => if ∃ b ∈ rest, key b = key a then compact rest else a :: compact rest

variable {key} {l : List α} {a : α}

theorem compact_cons : compact key (a :: l) =
    if ∃ b ∈ l, key b = key a then compact key l else a :: compact key l := rfl

theorem compact_sublist : (compact key l).Sublist l := by
  induction l with
  | nil => exact List.Sublist.slnil
  | cons a rest ih =>
    rw [compact_cons]
    split
    · exact ih.cons a
    · exact ih.cons_cons a

theorem compact_pairwise : (compact key l).Pairwise fun a b => key a ≠ key b := by
  induction l with
  | nil => exact List.Pairwise.nil
  | cons a rest ih =>
    rw [compact_cons]
    split
    · exact ih
    · rename_i hlast
      refine List.Pairwise.cons (fun b hb heq => hlast ⟨b, ?_, heq.symm⟩) ih
      exact compact_sublist.subset hb

theorem getLast?_filter_compact {p : α → Bool}
    (hp : ∀ a ∈ l, ∀ b ∈ l, key a = key b → p a = p b) :
    ((compact key l).filter p).getLast? = (l.filter p).getLast? := by
  induction l with
  | nil => rfl
  | cons a rest ih =>
    have hrest := ih fun b hb c hc => hp b (List.mem_cons_of_mem _ hb) c (List.mem_cons_of_mem _ hc)
    rw [compact_cons]
    split
    · rename_i hlater
      obtain ⟨b, hb, hkey⟩ := hlater
      rw [hrest, List.filter_cons]
      split
      · rename_i ha
        have hsome : rest.filter p ≠ [] := by
          have hpb : p b = true := (hp a List.mem_cons_self b (List.mem_cons_of_mem _ hb)
            hkey.symm).symm.trans ha
          exact List.ne_nil_of_mem (List.mem_filter.mpr ⟨hb, hpb⟩)
        rw [List.getLast?_cons, List.getLast?_eq_some_getLast hsome]
        rfl
      · rfl
    · rw [List.filter_cons, List.filter_cons]
      split
      · rw [List.getLast?_cons, List.getLast?_cons, hrest]
      · exact hrest

theorem filter_key_compact (k : κ) :
    (compact key l).filter (key · = k) = (l.filter (key · = k)).getLast?.toList := by
  have hsame : ∀ a ∈ l, ∀ b ∈ l, key a = key b → decide (key a = k) = decide (key b = k) :=
    fun a _ b _ h => by rw [h]
  rw [← getLast?_filter_compact hsame]
  have hpairwise : ((compact key l).filter (key · = k)).Pairwise fun a b => key a ≠ key b :=
    compact_pairwise.sublist List.filter_sublist
  have hkey : ∀ a ∈ (compact key l).filter (key · = k), key a = k := fun a ha =>
    of_decide_eq_true (List.mem_filter.mp ha).2
  generalize (compact key l).filter (key · = k) = kept at hpairwise hkey
  match kept, hpairwise, hkey with
  | [], _, _ => rfl
  | [a], _, _ => rfl
  | a :: b :: rest, hpairwise, hkey =>
    -- two records of one key
    have hne := (List.pairwise_cons.mp hpairwise).1 b List.mem_cons_self
    exact absurd ((hkey a List.mem_cons_self).trans
      (hkey b (List.mem_cons_of_mem _ List.mem_cons_self)).symm) hne

theorem filter_key_of_last {pre post : List α} (h : ∀ b ∈ post, key b ≠ key a) :
    (pre ++ a :: post).filter (key · = key a) = pre.filter (key · = key a) ++ [a] := by
  have hpost : post.filter (key · = key a) = [] :=
    List.filter_eq_nil_iff.mpr fun b hb => by simpa using h b hb
  have hlast : decide (key a = key a) = true := decide_eq_true rfl
  rw [List.filter_append, List.filter_cons, if_pos hlast, hpost]

theorem exists_last {k : κ} (h : ∃ a ∈ l, key a = k) :
    ∃ pre a post, l = pre ++ a :: post ∧ key a = k ∧ ∀ b ∈ post, key b ≠ key a := by
  induction l with
  | nil =>
    obtain ⟨a, ha, -⟩ := h
    cases ha
  | cons a rest ih =>
    by_cases hrest : ∃ b ∈ rest, key b = k
    · obtain ⟨pre, b, post, rfl, hb, hpost⟩ := ih hrest
      exact ⟨a :: pre, b, post, rfl, hb, hpost⟩
    · obtain ⟨b, hb, hkey⟩ := h
      rcases List.mem_cons.mp hb with rfl | hb
      · exact ⟨[], b, rest, rfl, hkey, fun c hc heq => hrest ⟨c, hc, heq.trans hkey⟩⟩
      · exact absurd ⟨b, hb, hkey⟩ hrest

section Replay

variable {σ : Type*}

def keyedStep (key : α → κ) (next : α → σ → σ) (states : κ → σ) (a : α) : κ → σ :=
  Function.update states (key a) (next a (states (key a)))

variable (next : α → σ → σ)

theorem keyedStep_of_ne {states : κ → σ} {k : κ} (h : k ≠ key a) :
    keyedStep key next states a k = states k := Function.update_of_ne h _ _

theorem keyedStep_self (states : κ → σ) :
    keyedStep key next states a (key a) = next a (states (key a)) :=
  Function.update_self _ _ _

theorem foldl_keyedStep (states : κ → σ) (k : κ) :
    l.foldl (keyedStep key next) states k =
      (l.filter (key · = k)).foldl (fun s a => next a s) (states k) := by
  induction l generalizing states with
  | nil => rfl
  | cons a rest ih =>
    rw [List.foldl_cons, ih, List.filter_cons]
    split
    · rename_i ha
      obtain rfl := of_decide_eq_true ha
      rw [keyedStep_self, List.foldl_cons]
    · rename_i ha
      have hne : k ≠ key a := fun h => ha (decide_eq_true h.symm)
      rw [keyedStep_of_ne next hne]

theorem replay_of_last {pre post : List α} (h : ∀ b ∈ post, key b ≠ key a) (states : κ → σ) :
    (pre ++ a :: post).foldl (keyedStep key next) states (key a) =
      next a (pre.foldl (keyedStep key next) states (key a)) := by
  rw [foldl_keyedStep, foldl_keyedStep, filter_key_of_last h, List.foldl_append]
  rfl

theorem replay_compact_of_last {pre post : List α} (h : ∀ b ∈ post, key b ≠ key a)
    (states : κ → σ) :
    (compact key (pre ++ a :: post)).foldl (keyedStep key next) states (key a) =
      next a (states (key a)) := by
  rw [foldl_keyedStep, filter_key_compact, filter_key_of_last h, List.getLast?_concat]
  rfl

end Replay

end Compaction

end OpenBridge.Foundation
