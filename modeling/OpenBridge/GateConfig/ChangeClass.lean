import Mathlib.Order.Bounds.Basic
import OpenBridge.Foundation.Worklist

/-!
# Gate configuration: the change class of an edit

The property catalogue is read by the service (`PropertyCatalogue.cs`) and by the jobs
(`PropertyCatalogue.java`).
-/

namespace OpenBridge.GateConfig.ChangeClass

open OpenBridge.Foundation

structure Entry where
  property : String
  changeClass : String
  dependencies : List String
deriving DecidableEq

/-- A catalogue: the service refuses one that names a property twice (`ToDictionary`). -/
structure PropertyCatalogue where
  properties : List Entry
  nodup : (properties.map Entry.property).Nodup

/-- `ChangeClasses`, `CLASS_ORDER`. -/
def classOrder : List String := ["POLICY", "STATE_BOUNDARY", "DEPLOYMENT"]

/-- `Array.IndexOf(ClassOrder, …)`, `CLASS_ORDER.indexOf(…)`. -/
def indexOf (changeClass : String) : ℤ :=
  match classOrder.idxOf? changeClass with
  | some i => i
  | none => -1

/-- `ClassOrder[Math.Max(0, best)]`. -/
def classAt (best : ℤ) : String := (classOrder[(max 0 best).toNat]?).getD ""

theorem indexOf_lt (changeClass : String) : indexOf changeClass < 3 := by
  unfold indexOf
  split
  · rename_i i h
    have hlt : i < classOrder.length := (List.idxOf?_eq_some_iff.mp h).1
    exact_mod_cast hlt
  · decide

theorem indexOf_classAt {best : ℤ} (h : best < 3) : indexOf (classAt best) = max 0 best := by
  rcases lt_or_ge best 1 with hlow | hlow
  · rw [max_eq_left (by omega)]
    have hzero : (max 0 best).toNat = 0 := by omega
    unfold classAt
    rw [hzero]
    rfl
  · have hcases : best = 1 ∨ best = 2 := by omega
    rcases hcases with rfl | rfl
    · rfl
    · rfl

theorem classAt_mem {best : ℤ} (h : best < 3) : classAt best ∈ classOrder := by
  have hlt : (max 0 best).toNat < classOrder.length := by
    change (max 0 best).toNat < 3
    omega
  unfold classAt
  rw [List.getElem?_eq_getElem hlt]
  exact List.getElem_mem hlt

namespace PropertyCatalogue

variable (c : PropertyCatalogue)

def names : List String := c.properties.map Entry.property

/-- `_byProperty` of the service. -/
def find (property : String) : Option Entry :=
  c.properties.find? fun e => e.property = property

/-- `byProperty` of the jobs: a later entry would replace an earlier one. -/
def findLast (property : String) : Option Entry :=
  c.properties.reverse.find? fun e => e.property = property

/-- The index `_dependants` of both: `m` after one more entry. -/
def addDependant (m : String → List String) (p : Entry) : String → List String :=
  p.dependencies.foldl (fun m d => Function.update m d (m d ++ [p.property])) m

def dependants : String → List String := c.properties.foldl addDependant fun _ => []

def DependsOn (property on : String) : Prop :=
  ∃ e ∈ c.properties, e.property = property ∧ on ∈ e.dependencies

theorem mem_addDependant {m : String → List String} {p : Entry} {x y : String} :
    y ∈ addDependant m p x ↔ y ∈ m x ∨ (p.property = y ∧ x ∈ p.dependencies) := by
  unfold addDependant
  generalize p.dependencies = ds
  induction ds generalizing m with
  | nil => simp
  | cons d ds ih =>
    rw [List.foldl_cons, ih, List.mem_cons]
    rcases eq_or_ne x d with rfl | hne
    · rw [Function.update_self, List.mem_append, List.mem_singleton]
      tauto
    · rw [Function.update_of_ne hne]
      tauto

theorem mem_dependants {x y : String} : y ∈ c.dependants x ↔ c.DependsOn y x := by
  have hfold (l : List Entry) (m : String → List String) :
      y ∈ l.foldl addDependant m x ↔
        y ∈ m x ∨ ∃ e ∈ l, e.property = y ∧ x ∈ e.dependencies := by
    induction l generalizing m with
    | nil => simp
    | cons p l ih =>
      rw [List.foldl_cons, ih, mem_addDependant, List.exists_mem_cons_iff, or_assoc]
  exact (hfold c.properties _).trans (or_iff_right List.not_mem_nil)

theorem dependants_mem_names {x y : String} (h : y ∈ c.dependants x) : y ∈ c.names := by
  obtain ⟨e, he, rfl, -⟩ := c.mem_dependants.mp h
  exact List.mem_map_of_mem he

theorem findLast_eq_find (property : String) : c.findLast property = c.find property := by
  unfold findLast find
  have hnodup := c.nodup
  generalize c.properties = l at hnodup
  induction l with
  | nil => rfl
  | cons p l ih =>
    rw [List.map_cons, List.nodup_cons] at hnodup
    rw [List.reverse_cons, List.find?_append, ih hnodup.2]
    rcases eq_or_ne p.property property with heq | hne
    · have hnone : l.find? (fun e => decide (e.property = property)) = none := by
        rw [List.find?_eq_none]
        intro e he hsame
        have hname : e.property = property := of_decide_eq_true hsame
        exact hnodup.1 (List.mem_map.mpr ⟨e, he, hname.trans heq.symm⟩)
      rw [hnone, Option.none_or]
      simp only [List.find?_cons, heq, decide_true]
    · simp only [List.find?_cons, hne, decide_false, List.find?_nil, Option.or_none]

def rankOf (e : Option Entry) : ℤ :=
  match e with
  | some e => indexOf e.changeClass
  | none => -1

def rank (property : String) : ℤ := rankOf (c.find property)

theorem rank_lt (property : String) : c.rank property < 3 := by
  unfold rank rankOf
  split
  · exact indexOf_lt _
  · decide

/-- `EffectiveChangeClass` of the service: a stack, the last edit and the last dependant on top. -/
def effectiveChangeClass (edited : List String) : String :=
  classAt (Worklist.walk c.names c.dependants (fun new rest => new.reverse ++ rest)
    (fun best p => max best (rankOf (c.find p))) 0 [] edited.reverse)

/-- `effectiveChangeClass` of the jobs: `pop` takes the head, `addAll` fills the tail. -/
def effectiveChangeClassJava (edited : List String) : String :=
  classAt (Worklist.walk c.names c.dependants (fun new rest => rest ++ new)
    (fun best p => max best (rankOf (c.findLast p))) 0 [] edited)

/-- The properties an edit bears on: the edited ones and all that depend on them, in any number of
steps.  A name that is not in the catalogue bears on nothing. -/
def Affected (edited : List String) (property : String) : Prop :=
  ∃ p ∈ edited, p ∈ c.names ∧ Relation.ReflTransGen (fun a b => c.DependsOn b a) p property

def classes (edited : List String) : Set ℤ :=
  insert 0 {r | ∃ p, c.Affected edited p ∧ r = c.rank p}

theorem isGreatest_foldr {α : Type} (f : α → ℤ) (l : List α) (best : ℤ) :
    IsGreatest (insert best {r | ∃ x ∈ l, r = f x}) (l.foldr (fun x b => max b (f x)) best) := by
  induction l with
  | nil => simp [IsGreatest, upperBounds]
  | cons x l ih =>
    obtain ⟨hmem, hbound⟩ := ih
    rw [List.foldr_cons]
    constructor
    · rcases max_choice (l.foldr (fun x b => max b (f x)) best) (f x) with hmax | hmax
      · rw [hmax]
        rcases hmem with hbest | ⟨y, hy, heq⟩
        · exact .inl hbest
        · exact .inr ⟨y, List.mem_cons_of_mem _ hy, heq⟩
      · rw [hmax]
        exact .inr ⟨x, List.mem_cons_self, rfl⟩
    · rintro r (rfl | ⟨y, hy, rfl⟩)
      · exact le_max_of_le_left (hbound (.inl rfl))
      · rcases List.mem_cons.mp hy with rfl | hy
        · exact le_max_right _ _
        · exact le_max_of_le_left (hbound (.inr ⟨y, hy, rfl⟩))

theorem walk_isGreatest {push : List String → List String → List String}
    (hpush : ∀ new rest x, x ∈ push new rest ↔ x ∈ new ∨ x ∈ rest) {stack edited : List String}
    (hstack : ∀ p, p ∈ stack ↔ p ∈ edited) :
    IsGreatest (c.classes edited)
      (Worklist.walk c.names c.dependants push (fun best p => max best (c.rank p)) 0 [] stack) := by
  have hclasses : c.classes edited =
      insert 0 {r | ∃ p ∈ Worklist.used c.names c.dependants push stack, r = c.rank p} := by
    unfold classes
    congr 1
    ext r
    have hused (p : String) : p ∈ Worklist.used c.names c.dependants push stack ↔
        c.Affected edited p := by
      rw [Worklist.mem_used_iff hpush fun x _ y hy => c.dependants_mem_names hy]
      unfold Affected Worklist.Leads
      simp only [hstack, mem_dependants]
    simp only [Set.mem_ofPred_eq, hused]
  rw [hclasses, Worklist.walk_eq_used]
  exact isGreatest_foldr c.rank _ 0

theorem isGreatest_classAt {edited : List String} {best : ℤ}
    (h : IsGreatest (c.classes edited) best) :
    classAt best ∈ classOrder ∧ IsGreatest (c.classes edited) (indexOf (classAt best)) := by
  have hlt : best < 3 := by
    rcases h.1 with rfl | ⟨p, -, rfl⟩
    · decide
    · exact c.rank_lt p
  have hnonneg : 0 ≤ best := h.2 (.inl rfl)
  refine ⟨classAt_mem hlt, ?_⟩
  rwa [indexOf_classAt hlt, max_eq_right hnonneg]

theorem effectiveChangeClass_spec (edited : List String) :
    c.effectiveChangeClass edited ∈ classOrder ∧
      IsGreatest (c.classes edited) (indexOf (c.effectiveChangeClass edited)) :=
  c.isGreatest_classAt (c.walk_isGreatest (fun new rest x => by simp) fun p => List.mem_reverse)

theorem effectiveChangeClassJava_spec (edited : List String) :
    c.effectiveChangeClassJava edited ∈ classOrder ∧
      IsGreatest (c.classes edited) (indexOf (c.effectiveChangeClassJava edited)) := by
  unfold effectiveChangeClassJava
  simp only [findLast_eq_find]
  refine c.isGreatest_classAt (c.walk_isGreatest (fun new rest x => ?_) fun p => Iff.rfl)
  rw [List.mem_append]
  exact or_comm

theorem eq_of_indexOf_eq {a b : String} (ha : a ∈ classOrder) (hb : b ∈ classOrder)
    (h : indexOf a = indexOf b) : a = b := by
  have hall : ∀ a ∈ classOrder, ∀ b ∈ classOrder, indexOf a = indexOf b → a = b := by decide
  exact hall a ha b hb h

theorem classes_mono {edited edited' : List String} (h : ∀ p ∈ edited, p ∈ edited') :
    c.classes edited ⊆ c.classes edited' := by
  rintro r (rfl | ⟨p, ⟨start, hstart, hreach⟩, rfl⟩)
  · exact .inl rfl
  · exact .inr ⟨p, ⟨start, h start hstart, hreach⟩, rfl⟩

/-- The class of an edit is the greatest one of what it bears on, on both sides, and depends on the
set of edited properties alone. -/
theorem effectiveChangeClass_closure (edited : List String) :
    (c.effectiveChangeClass edited ∈ classOrder ∧
        IsGreatest (c.classes edited) (indexOf (c.effectiveChangeClass edited))) ∧
      c.effectiveChangeClassJava edited = c.effectiveChangeClass edited ∧
      (∀ edited', (∀ p ∈ edited, p ∈ edited') →
        indexOf (c.effectiveChangeClass edited) ≤ indexOf (c.effectiveChangeClass edited')) ∧
      ∀ edited', (∀ p, p ∈ edited ↔ p ∈ edited') →
        c.effectiveChangeClass edited = c.effectiveChangeClass edited' := by
  obtain ⟨hmem, hgreatest⟩ := c.effectiveChangeClass_spec edited
  have hmono (edited' : List String) (h : ∀ p ∈ edited, p ∈ edited') :
      indexOf (c.effectiveChangeClass edited) ≤ indexOf (c.effectiveChangeClass edited') :=
    (c.effectiveChangeClass_spec edited').2.2 (c.classes_mono h hgreatest.1)
  refine ⟨⟨hmem, hgreatest⟩, ?_, hmono, ?_⟩
  · obtain ⟨hmemJava, hgreatestJava⟩ := c.effectiveChangeClassJava_spec edited
    exact eq_of_indexOf_eq hmemJava hmem (hgreatestJava.unique hgreatest)
  · intro edited' hsame
    obtain ⟨hmem', hgreatest'⟩ := c.effectiveChangeClass_spec edited'
    have hle : indexOf (c.effectiveChangeClass edited') ≤ indexOf (c.effectiveChangeClass edited) :=
      hgreatest.2 (c.classes_mono (fun p hp => (hsame p).mpr hp) hgreatest'.1)
    exact eq_of_indexOf_eq hmem hmem' (le_antisymm (hmono edited' fun p => (hsame p).mp) hle)

end PropertyCatalogue

end OpenBridge.GateConfig.ChangeClass
