import OpenBridge.Foundation.Dict
import OpenBridge.Foundation.Machine
import Mathlib.Order.Basic

/-!
# Foundation: a map with waiting writes

Two kinds of writers share a map: some write to it at once, the values of others wait in a second
map until a flush writes them.
-/

namespace OpenBridge.Foundation

universe u v w u' v'

structure Buffered (κ : Type u) (α : Type v) [DecidableEq κ] where
  shown : Dict κ α
  waiting : Dict κ α

namespace Buffered

variable {κ : Type u} {α : Type v} {ω : Type w} [DecidableEq κ] [Preorder ω] (rank : α → ω)

def writeAll (d : Dict κ α) (ws : List (κ × α)) : Dict κ α :=
  ws.foldl (fun d w => d.set w.1 w.2) d

def Fits (d : Dict κ α) (w : κ × α) : Prop := ∀ a ∈ d.get? w.1, rank a ≤ rank w.2

def AllFit : Dict κ α → List (κ × α) → Prop
  | _, [] => True
  | d, w :: ws => Fits rank d w ∧ AllFit (d.set w.1 w.2) ws

instance decidableFits [DecidableLE ω] (d : Dict κ α) (w : κ × α) : Decidable (Fits rank d w) :=
  inferInstanceAs (Decidable (∀ a ∈ d.get? w.1, rank a ≤ rank w.2))

instance decidableAllFit [DecidableLE ω] : ∀ (d : Dict κ α) (ws : List (κ × α)),
    Decidable (AllFit rank d ws)
  | _, [] => isTrue trivial
  | d, w :: ws =>
      have := decidableAllFit (d.set w.1 w.2) ws
      inferInstanceAs (Decidable (Fits rank d w ∧ AllFit rank (d.set w.1 w.2) ws))

/-- A map `d'` keeps every key of `d`, at the same rank or a greater one. -/
def Ascends (d d' : Dict κ α) : Prop :=
  ∀ k, ∀ a ∈ d.get? k, ∃ b ∈ d'.get? k, rank a ≤ rank b

variable {rank}

theorem Ascends.refl (d : Dict κ α) : Ascends rank d d := fun _ a ha => ⟨a, ha, le_rfl⟩

theorem Ascends.trans {d e f : Dict κ α} (h : Ascends rank d e) (h' : Ascends rank e f) :
    Ascends rank d f := by
  intro k a ha
  obtain ⟨b, hb, hab⟩ := h k a ha
  obtain ⟨c, hc, hbc⟩ := h' k b hb
  exact ⟨c, hc, hab.trans hbc⟩

theorem ascends_set {d : Dict κ α} {w : κ × α} (h : Fits rank d w) :
    Ascends rank d (d.set w.1 w.2) := by
  intro k a ha
  rw [Dict.get?_set]
  split
  · rename_i hk
    subst hk
    exact ⟨w.2, rfl, h a ha⟩
  · exact ⟨a, ha, le_rfl⟩

theorem ascends_writeAll {d : Dict κ α} {ws : List (κ × α)} (h : AllFit rank d ws) :
    Ascends rank d (writeAll d ws) := by
  induction ws generalizing d with
  | nil => exact .refl d
  | cons w ws ih => exact (ascends_set h.1).trans (ih h.2)

theorem exists_of_mem_writes {d : Dict κ α} {ws : List (κ × α)} (h : AllFit rank d ws) {k : κ}
    {a : α} (hmem : (k, a) ∈ ws) : ∃ b ∈ (writeAll d ws).get? k, rank a ≤ rank b := by
  induction ws generalizing d with
  | nil => cases hmem
  | cons w ws ih =>
    rcases List.mem_cons.mp hmem with rfl | hmem
    · exact ascends_writeAll h.2 k a (Dict.get?_set_self d k a)
    · exact ih h.2 hmem

theorem written_or_held {d : Dict κ α} {ws : List (κ × α)} {k : κ} {a : α}
    (h : a ∈ (writeAll d ws).get? k) : (k, a) ∈ ws ∨ a ∈ d.get? k := by
  induction ws generalizing d with
  | nil => exact .inr h
  | cons w ws ih =>
    rcases ih h with hw | hd
    · exact .inl (List.mem_cons_of_mem _ hw)
    · rw [Dict.get?_set] at hd
      split at hd
      · rename_i hk
        obtain rfl := Option.some.inj hd
        subst hk
        exact .inl List.mem_cons_self
      · exact .inr hd

theorem exists_writeAll {d : Dict κ α} {ws : List (κ × α)} {k : κ}
    (h : (∃ a, (k, a) ∈ ws) ∨ ∃ a, d.get? k = some a) :
    ∃ b, (writeAll d ws).get? k = some b := by
  induction ws generalizing d with
  | nil =>
    rcases h with ⟨a, ha⟩ | h
    · cases ha
    · exact h
  | cons w ws ih =>
    refine ih ?_
    by_cases hk : k = w.1
    · exact .inr ⟨w.2, by rw [hk, Dict.get?_set_self]⟩
    · rcases h with ⟨a, ha⟩ | ⟨a, ha⟩
      · rcases List.mem_cons.mp ha with rfl | ha
        · exact absurd rfl hk
        · exact .inl ⟨a, ha⟩
      · exact .inr ⟨a, (Dict.get?_set_of_ne d w.2 hk).trans ha⟩

inductive Op (κ : Type u) (α : Type v) where
  | write (ws : List (κ × α))
  | wait (ws : List (κ × α))
  | flush

def Op.received : Op κ α → List (κ × α)
  | .write ws | .wait ws => ws
  | .flush => []

def apply (b : Buffered κ α) : Op κ α → Buffered κ α
  | .write ws => { b with shown := writeAll b.shown ws }
  | .wait ws => { b with waiting := writeAll b.waiting ws }
  | .flush => ⟨writeAll b.shown b.waiting.entries, .empty⟩

variable (rank)

def InOrder (b : Buffered κ α) : Op κ α → Prop
  | .write ws => AllFit rank b.shown ws
  | .wait ws => AllFit rank b.waiting ws
  | .flush => AllFit rank b.shown b.waiting.entries

instance [DecidableLE ω] (b : Buffered κ α) : ∀ op, Decidable (InOrder rank b op)
  | .write ws => decidableAllFit rank b.shown ws
  | .wait ws => decidableAllFit rank b.waiting ws
  | .flush => decidableAllFit rank b.shown b.waiting.entries

/-- The map and what waits for it hold received values only, and a greatest of each key. -/
structure Accounts (received : List (κ × α)) (b : Buffered κ α) : Prop where
  shown_mem : ∀ k, ∀ a ∈ b.shown.get? k, (k, a) ∈ received
  waiting_mem : ∀ k, ∀ a ∈ b.waiting.get? k, (k, a) ∈ received
  held : ∀ k a, (k, a) ∈ received →
    ∃ c, (c ∈ b.shown.get? k ∨ c ∈ b.waiting.get? k) ∧ rank a ≤ rank c

/-- The map holds of every key a greatest of the values received for it. -/
def HoldsGreatest (received : List (κ × α)) (d : Dict κ α) : Prop :=
  (∀ k, ∀ a ∈ d.get? k, (k, a) ∈ received) ∧
    ∀ k a, (k, a) ∈ received → ∃ b ∈ d.get? k, rank a ≤ rank b

variable {rank}

theorem accounts_empty : Accounts rank [] (⟨.empty, .empty⟩ : Buffered κ α) where
  shown_mem _ _ h := absurd h (Option.not_mem_none _)
  waiting_mem _ _ h := absurd h (Option.not_mem_none _)
  held _ _ h := absurd h List.not_mem_nil

theorem Accounts.holdsGreatest {received : List (κ × α)} {b : Buffered κ α}
    (h : Accounts rank received b) (hquiet : b.waiting = .empty) :
    HoldsGreatest rank received b.shown := by
  refine ⟨h.shown_mem, fun k a ha => ?_⟩
  obtain ⟨c, hshown | hwaiting, hac⟩ := h.held k a ha
  · exact ⟨c, hshown, hac⟩
  · rw [hquiet] at hwaiting
    exact absurd hwaiting (Option.not_mem_none _)

variable {received : List (κ × α)} {b : Buffered κ α}

theorem Accounts.write (h : Accounts rank received b) {ws : List (κ × α)}
    (hfit : AllFit rank b.shown ws) :
    Accounts rank (received ++ ws) { b with shown := writeAll b.shown ws } where
  shown_mem k a ha := by
    rw [List.mem_append]
    rcases written_or_held ha with hw | hheld
    · exact .inr hw
    · exact .inl (h.shown_mem k a hheld)
  waiting_mem k a ha := List.mem_append_left _ (h.waiting_mem k a ha)
  held k a ha := by
    rcases List.mem_append.mp ha with hold | hnew
    · obtain ⟨c, hshown | hwaiting, hac⟩ := h.held k a hold
      · obtain ⟨c', hc', hle⟩ := ascends_writeAll hfit k c hshown
        exact ⟨c', .inl hc', hac.trans hle⟩
      · exact ⟨c, .inr hwaiting, hac⟩
    · obtain ⟨c, hc, hac⟩ := exists_of_mem_writes hfit hnew
      exact ⟨c, .inl hc, hac⟩

theorem Accounts.wait (h : Accounts rank received b) {ws : List (κ × α)}
    (hfit : AllFit rank b.waiting ws) :
    Accounts rank (received ++ ws) { b with waiting := writeAll b.waiting ws } where
  shown_mem k a ha := List.mem_append_left _ (h.shown_mem k a ha)
  waiting_mem k a ha := by
    rw [List.mem_append]
    rcases written_or_held ha with hw | hheld
    · exact .inr hw
    · exact .inl (h.waiting_mem k a hheld)
  held k a ha := by
    rcases List.mem_append.mp ha with hold | hnew
    · obtain ⟨c, hshown | hwaiting, hac⟩ := h.held k a hold
      · exact ⟨c, .inl hshown, hac⟩
      · obtain ⟨c', hc', hle⟩ := ascends_writeAll hfit k c hwaiting
        exact ⟨c', .inr hc', hac.trans hle⟩
    · obtain ⟨c, hc, hac⟩ := exists_of_mem_writes hfit hnew
      exact ⟨c, .inr hc, hac⟩

theorem Accounts.flush (h : Accounts rank received b)
    (hfit : AllFit rank b.shown b.waiting.entries) :
    Accounts rank received ⟨writeAll b.shown b.waiting.entries, .empty⟩ where
  shown_mem k a ha := by
    rcases written_or_held ha with hw | hheld
    · exact h.waiting_mem k a (Dict.get?_eq_some_iff.mpr hw)
    · exact h.shown_mem k a hheld
  waiting_mem _ _ ha := absurd ha (Option.not_mem_none _)
  held k a ha := by
    obtain ⟨c, hshown | hwaiting, hac⟩ := h.held k a ha
    · obtain ⟨c', hc', hle⟩ := ascends_writeAll hfit k c hshown
      exact ⟨c', .inl hc', hac.trans hle⟩
    · obtain ⟨c', hc', hle⟩ := exists_of_mem_writes hfit (Dict.get?_eq_some_iff.mp hwaiting)
      exact ⟨c', .inl hc', hac.trans hle⟩

theorem Accounts.apply (h : Accounts rank received b) {op : Op κ α} (horder : InOrder rank b op) :
    Accounts rank (received ++ op.received) (b.apply op) := by
  cases op with
  | write ws => exact h.write horder
  | wait ws => exact h.wait horder
  | flush =>
    rw [show (Op.flush : Op κ α).received = [] from rfl, List.append_nil]
    exact h.flush horder

theorem ascends_apply {op : Op κ α} (horder : InOrder rank b op) :
    Ascends rank b.shown (b.apply op).shown := by
  cases op with
  | write ws => exact ascends_writeAll horder
  | wait ws => exact .refl _
  | flush => exact ascends_writeAll horder

section Refinement

variable {σ : Type u'} {ι : Type v'} {step : σ → ι → σ × List (κ × α)} (view : σ → Buffered κ α)
  (op : σ → ι → Op κ α)

theorem accounts_of_inOrder (hview : ∀ s i, view (step s i).1 = (view s).apply (op s i))
    (hreceived : ∀ s i, (step s i).2 = (op s i).received) {s : σ} {is : List ι}
    (hstart : Accounts rank received (view s))
    (h : Machine.Always step (fun s i => InOrder rank (view s) (op s i)) s is) :
    Accounts rank (received ++ Machine.outputs step s is)
      (view (Machine.stateAfter step s is)) := by
  induction is generalizing s received with
  | nil => rwa [Machine.outputs_nil, List.append_nil]
  | cons i is ih =>
    rw [Machine.outputs_cons, ← List.append_assoc, hreceived]
    refine ih ?_ h.2
    rw [hview]
    exact hstart.apply h.1

theorem ascends_of_inOrder (hview : ∀ s i, view (step s i).1 = (view s).apply (op s i)) {s : σ}
    {is : List ι} (h : Machine.Always step (fun s i => InOrder rank (view s) (op s i)) s is) :
    Ascends rank (view s).shown (view (Machine.stateAfter step s is)).shown := by
  induction is generalizing s with
  | nil => exact .refl _
  | cons i is ih =>
    refine Ascends.trans ?_ (ih h.2)
    rw [hview]
    exact ascends_apply h.1

end Refinement

end Buffered

end OpenBridge.Foundation
