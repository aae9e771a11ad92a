import OpenBridge.Foundation.Machine

/-!
# Foundation: checks and later acts

A request is checked against the stored state, and when it is accepted the decision is written
later, whatever is stored by then.  Other steps check and write at once.
-/

namespace OpenBridge.Foundation

universe u

namespace CheckThenAct

/-- The checks and the writes of a component: the requests `α`, the decisions `δ`, what is known at
the write only `ω`, and the steps `β` that check and write at once. -/
structure Protocol (σ α δ ω β : Type) where
  /-- The decision on a request, when it is accepted. -/
  decide : α → σ → Option δ
  /-- The write of an accepted request. -/
  write : α → δ → ω → σ → σ
  /-- A step that checks and writes at once, when it succeeds. -/
  atomic : β → σ → Option σ

inductive Event (ι α ω β : Type)
  /-- The check of a request. -/
  | check (i : ι) (a : α)
  /-- The write of the request that was accepted under this name. -/
  | act (i : ι) (w : ω)
  /-- A step at once. -/
  | atomic (b : β)
  deriving DecidableEq

inductive Success (α ω β : Type)
  /-- A request that was written. -/
  | acted (a : α) (w : ω)
  /-- A step at once. -/
  | atomic (b : β)
  deriving DecidableEq

structure State (ι σ α δ : Type) where
  /-- What is stored. -/
  stored : σ
  /-- The accepted requests. -/
  inFlight : ι → Option (α × δ)

namespace Protocol

variable {ι σ α δ ω β : Type} [DecidableEq ι] (P : Protocol σ α δ ω β)

def start (s : σ) : State ι σ α δ := { stored := s, inFlight := fun _ => none }

def step (s : State ι σ α δ) : Event ι α ω β → State ι σ α δ × List (Success α ω β)
  | .check i a =>
      ({ s with inFlight := Function.update s.inFlight i ((P.decide a s.stored).map (a, ·)) }, [])
  | .act i w =>
      match s.inFlight i with
      | none => (s, [])
      | some (a, d) =>
          ({ stored := P.write a d w s.stored, inFlight := Function.update s.inFlight i none },
           [.acted a w])
  | .atomic b =>
      match P.atomic b s.stored with
      | none => (s, [])
      | some stored => ({ s with stored := stored }, [.atomic b])

def perform (s : σ) : Success α ω β → Option σ
  | .acted a w => (P.decide a s).map fun d => P.write a d w s
  | .atomic b => P.atomic b s

def sequentially (s : σ) : List (Success α ω β) → Option σ
  | [] => some s
  | a :: rest => (P.perform s a).bind fun t => sequentially t rest

/-- The decision that the step writes is still the one on what is stored. -/
def Stands (s : State ι σ α δ) : Event ι α ω β → Prop
  | .act i _ => ∀ a d, s.inFlight i = some (a, d) → P.decide a s.stored = some d
  | _ => True

theorem step_act {s : State ι σ α δ} {i : ι} {a : α} {d : δ} (h : s.inFlight i = some (a, d))
    (w : ω) : P.step s (.act i w) =
      ({ stored := P.write a d w s.stored, inFlight := Function.update s.inFlight i none },
       [.acted a w]) := by
  rw [step, h]

theorem sequentially_append (s : σ) (xs ys : List (Success α ω β)) :
    P.sequentially s (xs ++ ys) = (P.sequentially s xs).bind fun t => P.sequentially t ys := by
  induction xs generalizing s with
  | nil => rfl
  | cons x xs ih =>
    rw [List.cons_append, sequentially, sequentially, Option.bind_assoc]
    exact Option.bind_congr fun t _ => ih t

theorem sequentially_step {s : State ι σ α δ} {e : Event ι α ω β} (h : P.Stands s e) :
    P.sequentially s.stored (P.step s e).2 = some (P.step s e).1.stored := by
  cases e with
  | check i a => rfl
  | act i w =>
    cases hi : s.inFlight i with
    | none => rw [step, hi]; rfl
    | some ad =>
      rw [P.step_act hi]
      simp only [sequentially, perform, h ad.1 ad.2 hi, Option.map_some, Option.bind_some]
  | atomic b =>
    unfold step
    dsimp only
    split
    · rfl
    · rename_i stored hb
      simp only [sequentially, perform, hb, Option.bind_some]

theorem sequentially_outputs {s : State ι σ α δ} {events : List (Event ι α ω β)}
    (h : Machine.Always P.step P.Stands s events) :
    P.sequentially s.stored (Machine.outputs P.step s events) =
      some (Machine.stateAfter P.step s events).stored := by
  induction events using List.reverseRecOn with
  | nil => rfl
  | append_singleton events e ih =>
    rw [Machine.always_concat] at h
    rw [Machine.outputs_concat, Machine.stateAfter_concat, sequentially_append, ih h.1,
      Option.bind_some]
    exact P.sequentially_step h.2

variable {P}

theorem sequentially_invariant {I : σ → Prop}
    (hkeep : ∀ s a t, I s → P.perform s a = some t → I t) {s t : σ} {xs : List (Success α ω β)}
    (hs : I s) (h : P.sequentially s xs = some t) : I t := by
  induction xs generalizing s with
  | nil =>
    obtain rfl := Option.some.inj h
    exact hs
  | cons x xs ih =>
    obtain ⟨u, hu, hrest⟩ := Option.bind_eq_some_iff.mp h
    exact ih (hkeep s x u hs hu) hrest

end Protocol

end CheckThenAct

/-!
# Foundation: loads and later saves

A writer loads what is stored, decides what to write, and saves it later, over whatever is stored by
then.
-/

namespace ReadModifyWrite

/-- The operations `α` of writers over what is stored, with their decisions `δ`. -/
structure Protocol (σ α δ : Type) where
  /-- What is decided on what was loaded, unless the operation is refused. -/
  decide : α → σ → Option δ
  /-- What is stored when the decision on what was loaded is saved, unless the save fails. -/
  save : α → σ → δ → σ → Option σ

/-- A step of a run: a load, or the save of the operation that was loaded under a name. -/
inductive Event (ι α : Type)
  | load (i : ι) (a : α)
  | save (i : ι)
  deriving DecidableEq

structure State (ι σ α δ : Type) where
  stored : σ
  /-- The operation, what it loaded and what it decided. -/
  inFlight : ι → Option (α × σ × δ)

def start {ι σ α δ : Type} (s : σ) : State ι σ α δ := { stored := s, inFlight := fun _ => none }

namespace Protocol

variable {ι σ α δ : Type} [DecidableEq ι] (P : Protocol σ α δ)

def step (s : State ι σ α δ) : Event ι α → State ι σ α δ × List α
  | .load i a =>
      let loaded := (P.decide a s.stored).map fun d => (a, s.stored, d)
      ({ s with inFlight := Function.update s.inFlight i loaded }, [])
  | .save i =>
      match s.inFlight i with
      | none => (s, [])
      | some (a, loaded, d) =>
          match P.save a loaded d s.stored with
          | none => ({ s with inFlight := Function.update s.inFlight i none }, [])
          | some next => ({ stored := next, inFlight := Function.update s.inFlight i none }, [a])

def perform (s : σ) (a : α) : Option σ := (P.decide a s).bind fun d => P.save a s d s

def sequentially (s : σ) : List α → Option σ
  | [] => some s
  | a :: rest => (P.perform s a).bind fun next => sequentially next rest

/-- What is stored after the run is what its successful operations store in some order. -/
def Serializable (s : σ) (events : List (Event ι α)) : Prop :=
  ∃ order : List α, order.Perm (Machine.outputs P.step (start s) events) ∧
    P.sequentially s order = some (Machine.stateAfter P.step (start s) events).stored

/-- The save meets what its operation loaded, or else it stores what the operation gives on what it
meets. -/
def Undisturbed (s : State ι σ α δ) : Event ι α → Prop
  | .load _ _ => True
  | .save i => ∀ a loaded d, s.inFlight i = some (a, loaded, d) → loaded = s.stored ∨
      ∀ next, P.save a loaded d s.stored = some next → P.perform s.stored a = some next

def Decided (s : State ι σ α δ) : Prop :=
  ∀ i a loaded d, s.inFlight i = some (a, loaded, d) → P.decide a loaded = some d

theorem sequentially_append (s : σ) (xs ys : List α) :
    P.sequentially s (xs ++ ys) = (P.sequentially s xs).bind fun t => P.sequentially t ys := by
  induction xs generalizing s with
  | nil => rfl
  | cons x xs ih =>
    rw [List.cons_append, sequentially, sequentially, Option.bind_assoc]
    exact Option.bind_congr fun t _ => ih t

variable {P}

theorem decided_cleared {s : State ι σ α δ} (h : P.Decided s) (i : ι) (stored : σ) :
    P.Decided { stored := stored, inFlight := Function.update s.inFlight i none } := by
  intro j a loaded d hj
  by_cases hij : j = i
  · rw [hij] at hj
    simp at hj
  · simp only [Function.update_of_ne hij] at hj
    exact h j a loaded d hj

theorem decided_step {s : State ι σ α δ} (h : P.Decided s) (e : Event ι α) :
    P.Decided (P.step s e).1 := by
  cases e with
  | load i a =>
    intro j b loaded d hj
    unfold step at hj
    by_cases hij : j = i
    · subst hij
      simp only [Function.update_self] at hj
      obtain ⟨d', hd, heq⟩ := Option.map_eq_some_iff.mp hj
      cases heq
      exact hd
    · simp only [Function.update_of_ne hij] at hj
      exact h j b loaded d hj
  | save i =>
    unfold step
    dsimp only
    split
    · exact h
    · split
      · exact decided_cleared h i s.stored
      · exact decided_cleared h i _

theorem undisturbed_load_save (s : State ι σ α δ) (i : ι) (a : α) :
    P.Undisturbed (P.step s (.load i a)).1 (.save i) := by
  intro b loaded d hi
  unfold step at hi
  simp only [Function.update_self] at hi
  obtain ⟨d', -, heq⟩ := Option.map_eq_some_iff.mp hi
  cases heq
  exact Or.inl rfl

theorem sequentially_step {s : State ι σ α δ} {e : Event ι α} (hdecided : P.Decided s)
    (h : P.Undisturbed s e) :
    P.sequentially s.stored (P.step s e).2 = some (P.step s e).1.stored := by
  cases e with
  | load i a => rfl
  | save i =>
    unfold step
    dsimp only
    split
    · rfl
    · rename_i a loaded d hi
      split
      · rfl
      · rename_i next hsave
        have hperform : P.perform s.stored a = some next := by
          rcases h a loaded d hi with hsame | hsame
          · have hd := hdecided i a loaded d hi
            rw [hsame] at hd hsave
            rw [perform, hd, Option.bind_some, hsave]
          · exact hsame next hsave
        rw [sequentially, hperform]
        rfl

theorem serializable_of_undisturbed (s : σ) {events : List (Event ι α)}
    (h : Machine.Always P.step P.Undisturbed (start s) events) : P.Serializable s events := by
  refine ⟨_, List.Perm.refl _, ?_⟩
  have hdecided : ∀ pre : List (Event ι α),
      P.Decided (Machine.stateAfter P.step (start s) pre) :=
    Machine.invariant P.Decided (by simp [Decided, start]) fun _ e hd => decided_step hd e
  induction events using List.reverseRecOn with
  | nil => rfl
  | append_singleton pre e ih =>
    rw [Machine.always_concat] at h
    rw [Machine.outputs_concat, Machine.stateAfter_concat, sequentially_append, ih h.1,
      Option.bind_some]
    exact sequentially_step (hdecided pre) h.2

end Protocol

end ReadModifyWrite

end OpenBridge.Foundation
