import Mathlib.Data.List.Induction

/-!
# Foundation: state machines with output

Every modelled component is a function from a state and an input to the next state and the records
it emits.  This module runs such a function over a list of inputs and packages the inductions.
-/

namespace OpenBridge.Foundation

universe u v w

theorem forall_split_concat {α : Type} {P : List α → α → Prop} {l : List α} {x : α}
    (h : ∀ pre e post, l = pre ++ e :: post → P pre e) (hlast : P l x) :
    ∀ pre e post, l ++ [x] = pre ++ e :: post → P pre e := by
  intro pre e post heq
  rcases List.eq_nil_or_concat post with rfl | ⟨post', last, rfl⟩
  · obtain ⟨rfl, hcons⟩ := List.append_inj' heq rfl
    obtain ⟨rfl, -⟩ := List.cons.inj hcons
    exact hlast
  · have hsplit : l ++ [x] = (pre ++ e :: post') ++ [last] := by
      rw [heq, List.append_assoc, List.cons_append, List.concat_eq_append]
    obtain ⟨hl, -⟩ := List.append_inj' hsplit rfl
    exact h pre e post' hl

theorem forall_split_concat_iff {α : Type} {P : List α → α → Prop} {l : List α} {x : α} :
    (∀ pre e post, l ++ [x] = pre ++ e :: post → P pre e) ↔
      (∀ pre e post, l = pre ++ e :: post → P pre e) ∧ P l x := by
  constructor
  · intro h
    exact ⟨fun pre e post heq => h pre e (post ++ [x]) (by rw [heq, List.append_assoc]; rfl),
      h l x [] rfl⟩
  · rintro ⟨h, hlast⟩
    exact forall_split_concat h hlast

theorem forall_split_congr {α : Type} {P Q : List α → α → Prop} (I : List α → Prop) (hnil : I [])
    (hkeep : ∀ l x, I l → Q l x → I (l ++ [x])) (hiff : ∀ l x, I l → (P l x ↔ Q l x))
    (l : List α) :
    (∀ pre e post, l = pre ++ e :: post → P pre e) ↔
      ∀ pre e post, l = pre ++ e :: post → Q pre e := by
  have hboth : ((∀ pre e post, l = pre ++ e :: post → P pre e) ↔
      ∀ pre e post, l = pre ++ e :: post → Q pre e) ∧
      ((∀ pre e post, l = pre ++ e :: post → Q pre e) → I l) := by
    induction l using List.reverseRecOn with
    | nil => exact ⟨by simp, fun _ => hnil⟩
    | append_singleton l x ih =>
      obtain ⟨hsame, hinv⟩ := ih
      rw [forall_split_concat_iff, forall_split_concat_iff, hsame]
      constructor
      · exact and_congr_right fun h => hiff l x (hinv h)
      · rintro ⟨h, hlast⟩
        exact hkeep l x (hinv h) hlast
  exact hboth.1

namespace Machine

variable {σ : Type u} {ι : Type v} {ο : Type w} (step : σ → ι → σ × List ο)

def run (s : σ) : List ι → σ × List ο
  | [] => (s, [])
  | i :: rest =>
      ((run (step s i).1 rest).1, (step s i).2 ++ (run (step s i).1 rest).2)

def stateAfter (s : σ) (inputs : List ι) : σ := (run step s inputs).1

def outputs (s : σ) (inputs : List ι) : List ο := (run step s inputs).2

@[simp] theorem stateAfter_nil (s : σ) : stateAfter step s [] = s := rfl

@[simp] theorem outputs_nil (s : σ) : outputs step s [] = [] := rfl

theorem stateAfter_cons (s : σ) (i : ι) (rest : List ι) :
    stateAfter step s (i :: rest) = stateAfter step (step s i).1 rest := rfl

theorem outputs_cons (s : σ) (i : ι) (rest : List ι) :
    outputs step s (i :: rest) = (step s i).2 ++ outputs step (step s i).1 rest := rfl

theorem stateAfter_append (s : σ) (is js : List ι) :
    stateAfter step s (is ++ js) = stateAfter step (stateAfter step s is) js := by
  induction is generalizing s with
  | nil => rfl
  | cons i rest ih => rw [List.cons_append, stateAfter_cons, stateAfter_cons, ih]

theorem outputs_append (s : σ) (is js : List ι) :
    outputs step s (is ++ js) = outputs step s is ++ outputs step (stateAfter step s is) js := by
  induction is generalizing s with
  | nil => rfl
  | cons i rest ih =>
    rw [List.cons_append, outputs_cons, outputs_cons, ih, stateAfter_cons, List.append_assoc]

@[simp] theorem stateAfter_concat (s : σ) (is : List ι) (i : ι) :
    stateAfter step s (is ++ [i]) = (step (stateAfter step s is) i).1 := by
  rw [stateAfter_append]; rfl

@[simp] theorem outputs_concat (s : σ) (is : List ι) (i : ι) :
    outputs step s (is ++ [i]) = outputs step s is ++ (step (stateAfter step s is) i).2 := by
  rw [outputs_append, outputs_cons, outputs_nil, List.append_nil]

theorem history_invariant {step : σ → ι → σ × List ο} {s : σ} (P : List ι → σ → Prop)
    (hstart : P [] s)
    (hstep : ∀ (pre : List ι) (i : ι), P pre (stateAfter step s pre) →
      P (pre ++ [i]) (step (stateAfter step s pre) i).1)
    (inputs : List ι) : P inputs (stateAfter step s inputs) := by
  induction inputs using List.reverseRecOn with
  | nil => exact hstart
  | append_singleton pre i ih =>
    rw [stateAfter_concat]
    exact hstep pre i ih

theorem invariant {step : σ → ι → σ × List ο} {s : σ} (P : σ → Prop) (hstart : P s)
    (hstep : ∀ (t : σ) (i : ι), P t → P (step t i).1) (inputs : List ι) :
    P (stateAfter step s inputs) :=
  history_invariant (fun _ t => P t) hstart (fun _ i h => hstep _ i h) inputs

section Always

variable (P : σ → ι → Prop)

/-- Every step of the run is taken where `P` holds of the state and the input. -/
def Always (s : σ) : List ι → Prop
  | [] => True
  | i :: rest => P s i ∧ Always (step s i).1 rest

instance decidableAlways [∀ s i, Decidable (P s i)] : ∀ (s : σ) (is : List ι),
    Decidable (Always step P s is)
  | _, [] => isTrue trivial
  | s, i :: rest =>
      have := decidableAlways (step s i).1 rest
      inferInstanceAs (Decidable (P s i ∧ Always step P (step s i).1 rest))

@[simp] theorem always_nil (s : σ) : Always step P s [] := trivial

theorem always_append (s : σ) (is js : List ι) : Always step P s (is ++ js) ↔
    Always step P s is ∧ Always step P (stateAfter step s is) js := by
  induction is generalizing s with
  | nil => simp
  | cons i rest ih =>
    rw [List.cons_append, Always, Always, ih, stateAfter_cons, and_assoc]

theorem always_concat (s : σ) (is : List ι) (i : ι) : Always step P s (is ++ [i]) ↔
    Always step P s is ∧ P (stateAfter step s is) i := by
  rw [always_append, Always, Always, and_true]

theorem always_congr {P Q : σ → ι → Prop} (h : ∀ s i, P s i ↔ Q s i) {s : σ} {is : List ι} :
    Always step P s is ↔ Always step Q s is := by
  induction is generalizing s with
  | nil => exact Iff.rfl
  | cons i rest ih => rw [Always, Always, h, ih]

theorem always_of_always {P Q : σ → ι → Prop} (I : σ → Prop)
    (hkeep : ∀ t i, I t → P t i → I (step t i).1) (himp : ∀ t i, I t → P t i → Q t i) {s : σ}
    {is : List ι} (hstart : I s) (h : Always step P s is) : Always step Q s is := by
  induction is generalizing s with
  | nil => exact trivial
  | cons i rest ih => exact ⟨himp s i hstart h.1, ih (hkeep s i hstart h.1) h.2⟩

theorem stateAfter_of_always {P : σ → ι → Prop} (I : σ → Prop)
    (hkeep : ∀ t i, I t → P t i → I (step t i).1) {s : σ} {is : List ι} (hstart : I s)
    (h : Always step P s is) : I (stateAfter step s is) := by
  induction is generalizing s with
  | nil => exact hstart
  | cons i rest ih => exact ih (hkeep s i hstart h.1) h.2

theorem stateAfter_filter {step : σ → ι → σ × List ο} {keep : ι → Bool}
    (h : ∀ s i, keep i = false → (step s i).1 = s) (s : σ) (is : List ι) :
    stateAfter step s (is.filter keep) = stateAfter step s is := by
  induction is generalizing s with
  | nil => rfl
  | cons i rest ih =>
    cases hi : keep i with
    | false => rw [List.filter_cons_of_neg (Bool.eq_false_iff.mp hi), ih, stateAfter_cons, h s i hi]
    | true => rw [List.filter_cons_of_pos hi, stateAfter_cons, stateAfter_cons, ih]

theorem always_filter {step : σ → ι → σ × List ο} {P : σ → ι → Prop} {keep : ι → Bool}
    (h : ∀ s i, keep i = false → (step s i).1 = s ∧ P s i) {s : σ} {is : List ι} :
    Always step P s (is.filter keep) ↔ Always step P s is := by
  induction is generalizing s with
  | nil => exact Iff.rfl
  | cons i rest ih =>
    cases hi : keep i with
    | false =>
      rw [List.filter_cons_of_neg (Bool.eq_false_iff.mp hi), ih, Always, (h s i hi).1]
      exact (and_iff_right (h s i hi).2).symm
    | true => rw [List.filter_cons_of_pos hi, Always, Always, ih]

theorem outputs_of_always {P : σ → ι → Prop} {Q : ο → Prop} (I : σ → Prop)
    (hkeep : ∀ t i, I t → P t i → I (step t i).1)
    (hout : ∀ t i, I t → P t i → ∀ o ∈ (step t i).2, Q o) {s : σ} {is : List ι} (hstart : I s)
    (h : Always step P s is) : ∀ o ∈ outputs step s is, Q o := by
  induction is generalizing s with
  | nil => exact nofun
  | cons i rest ih =>
    intro o ho
    rw [outputs_cons, List.mem_append] at ho
    rcases ho with ho | ho
    · exact hout s i hstart h.1 o ho
    · exact ih (hkeep s i hstart h.1) h.2 o ho

theorem always_iff {s : σ} {is : List ι} : Always step P s is ↔
    ∀ pre i post, is = pre ++ i :: post → P (stateAfter step s pre) i := by
  induction is using List.reverseRecOn with
  | nil => simp
  | append_singleton pre i ih =>
    rw [always_concat, ih]
    constructor
    · rintro ⟨hpre, hlast⟩ pre' i' post heq
      rcases List.eq_nil_or_concat post with rfl | ⟨post', last, rfl⟩
      · obtain ⟨rfl, heq⟩ := List.append_inj' heq rfl
        obtain rfl : i = i' := by simpa using heq
        exact hlast
      · have hsplit : pre ++ [i] = (pre' ++ i' :: post') ++ [last] := by simpa using heq
        obtain ⟨rfl, -⟩ := List.append_inj' hsplit rfl
        exact hpre pre' i' post' rfl
    · intro h
      exact ⟨fun pre' i' post heq => h pre' i' (post ++ [i]) (by simp [heq]), h pre i [] rfl⟩

theorem throughout_iff_always {Q : σ → Prop} {s : σ} (hstart : Q s)
    (hstep : ∀ t i, Q t → (Q (step t i).1 ↔ P t i)) (is : List ι) :
    (∀ pre, pre <+: is → Q (stateAfter step s pre)) ↔ Always step P s is := by
  induction is using List.reverseRecOn with
  | nil =>
    refine iff_of_true (fun pre hpre => ?_) trivial
    rw [List.prefix_nil.mp hpre]
    exact hstart
  | append_singleton is i ih =>
    rw [always_concat, ← ih]
    constructor
    · intro h
      have hpre : ∀ pre, pre <+: is → Q (stateAfter step s pre) :=
        fun pre hpre => h pre (hpre.trans (List.prefix_append _ _))
      have hlast := h (is ++ [i]) List.prefix_rfl
      rw [stateAfter_concat] at hlast
      exact ⟨hpre, (hstep _ i (hpre is List.prefix_rfl)).mp hlast⟩
    · rintro ⟨hpre, hlast⟩ pre hprefix
      rcases List.prefix_concat_iff.mp hprefix with rfl | hprefix
      · rw [stateAfter_concat]
        exact (hstep _ i (hpre is List.prefix_rfl)).mpr hlast
      · exact hpre pre hprefix

end Always

end Machine

end OpenBridge.Foundation
