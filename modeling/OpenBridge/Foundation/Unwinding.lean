import OpenBridge.Foundation.Dict

/-!
# Foundation: runs that differ in what an observer does not see

Steps over a state, of which an observer sees the state up to a relation.  When every step keeps
related states related and the hidden ones leave the state related to itself, two runs that differ
in hidden steps only end in related states (`runs_related`).
-/

namespace OpenBridge.Foundation

universe u v

namespace Unwinding

variable {σ : Type u} {ρ : Type v} {step : σ → ρ → σ} {R : σ → σ → Prop}

def Consistent (step : σ → ρ → σ) (R : σ → σ → Prop) : Prop :=
  ∀ s t r, R s t → R (step s r) (step t r)

def Hidden (step : σ → ρ → σ) (R : σ → σ → Prop) (r : ρ) : Prop :=
  ∀ s, R (step s r) s

theorem run_related_filter (visible : ρ → Bool) (htrans : ∀ a b c, R a b → R b c → R a c)
    (hcons : Consistent step R) (rs : List ρ)
    (hhidden : ∀ r ∈ rs, visible r = false → Hidden step R r) {s t : σ} (h : R s t) :
    R (rs.foldl step s) ((rs.filter visible).foldl step t) := by
  induction rs generalizing s t with
  | nil => exact h
  | cons r rest ih =>
    have hrest := fun x hx => hhidden x (List.mem_cons_of_mem r hx)
    cases hv : visible r with
    | true =>
      rw [List.filter_cons, if_pos hv]
      exact ih hrest (hcons s t r h)
    | false =>
      rw [List.filter_cons, if_neg (by simp [hv])]
      exact ih hrest (htrans _ _ _ (hhidden r (List.mem_cons_self) hv s) h)

theorem runs_related (visible : ρ → Bool) (hrefl : ∀ a, R a a) (hsymm : ∀ a b, R a b → R b a)
    (htrans : ∀ a b c, R a b → R b c → R a c) (hcons : Consistent step R) {rs rs' : List ρ}
    (hsame : rs.filter visible = rs'.filter visible)
    (hhidden : ∀ r ∈ rs ++ rs', visible r = false → Hidden step R r) (s : σ) :
    R (rs.foldl step s) (rs'.foldl step s) := by
  have h := run_related_filter visible htrans hcons rs
    (fun r hr => hhidden r (List.mem_append_left rs' hr)) (hrefl s)
  have h' := run_related_filter visible htrans hcons rs'
    (fun r hr => hhidden r (List.mem_append_right rs hr)) (hrefl s)
  rw [hsame] at h
  exact htrans _ _ _ h (hsymm _ _ h')

end Unwinding

/-! ## Updates of a dictionary -/

namespace Dict

variable {κ : Type u} {ν : Type v} [DecidableEq κ]

/-- Remove the keys that satisfy `p`. -/
def removeWhere (d : Dict κ ν) (p : κ → Bool) : Dict κ ν :=
  ⟨d.entries.filter (fun e => !p e.1),
    d.nodupKeys.sublist (List.Sublist.map _ List.filter_sublist)⟩

omit [DecidableEq κ] in
theorem lookup_filter_key [BEq κ] [LawfulBEq κ] (p : κ → Bool) (es : List (κ × ν)) (k : κ) :
    (es.filter fun e => !p e.1).lookup k = if p k then none else es.lookup k := by
  induction es with
  | nil => simp
  | cons e rest ih =>
    obtain ⟨k₀, v⟩ := e
    cases hp : p k₀ with
    | true =>
      simp only [List.filter_cons, hp, Bool.not_true, Bool.false_eq_true, if_false, ih,
        List.lookup_cons]
      by_cases hk : k = k₀
      · rw [hk, hp, if_pos rfl, if_pos rfl]
      · rw [beq_false_of_ne hk]
    | false =>
      simp only [List.filter_cons, hp, Bool.not_false, if_true, List.lookup_cons, ih]
      by_cases hk : k = k₀
      · simp [hk, hp]
      · rw [beq_false_of_ne hk]

theorem get?_removeWhere (d : Dict κ ν) (p : κ → Bool) (k : κ) :
    (d.removeWhere p).get? k = if p k then none else d.get? k :=
  lookup_filter_key p d.entries k

/-- Two dictionaries hold the same under every key of `K`. -/
def AgreeOn (K : κ → Prop) (d e : Dict κ ν) : Prop := ∀ k, K k → d.get? k = e.get? k

inductive Update (κ : Type u) (ν : Type v) where
  | put (key : κ) (value : ν)
  | removeWhere (p : κ → Bool)

namespace Update

def touches : Update κ ν → κ → Bool
  | put key _, k => k = key
  | removeWhere p, k => p k

def apply (d : Dict κ ν) : Update κ ν → Dict κ ν
  | put key value => d.set key value
  | removeWhere p => d.removeWhere p

def applyAll (d : Dict κ ν) (us : List (Update κ ν)) : Dict κ ν := us.foldl apply d

theorem get?_apply_congr {d e : Dict κ ν} {k : κ} (u : Update κ ν) (h : d.get? k = e.get? k) :
    (apply d u).get? k = (apply e u).get? k := by
  cases u with
  | put key value => simp only [apply, get?_set, h]
  | removeWhere p => simp only [apply, get?_removeWhere, h]

theorem get?_apply_of_not_touches {u : Update κ ν} {k : κ} (h : u.touches k = false)
    (d : Dict κ ν) : (apply d u).get? k = d.get? k := by
  cases u with
  | put key value => exact get?_set_of_ne d value (of_decide_eq_false h)
  | removeWhere p =>
    simp only [touches] at h
    simp only [apply, get?_removeWhere, h, Bool.false_eq_true, if_false]

theorem AgreeOn.applyAll {K : κ → Prop} (us : List (Update κ ν)) {d e : Dict κ ν}
    (h : AgreeOn K d e) : AgreeOn K (applyAll d us) (applyAll e us) := by
  induction us generalizing d e with
  | nil => exact h
  | cons u rest ih => exact ih fun k hk => get?_apply_congr u (h k hk)

theorem agreeOn_applyAll {K : κ → Prop} {us : List (Update κ ν)}
    (h : ∀ u ∈ us, ∀ k, K k → u.touches k = false) (d : Dict κ ν) :
    AgreeOn K (Update.applyAll d us) d := by
  induction us generalizing d with
  | nil => exact fun _ _ => rfl
  | cons u rest ih =>
    intro k hk
    have hrest := ih (fun x hx => h x (List.mem_cons_of_mem u hx)) (apply d u) k hk
    exact hrest.trans (get?_apply_of_not_touches (h u List.mem_cons_self k hk) d)

end Update

end Dict

end OpenBridge.Foundation
