import OpenBridge.GateConfig.CanonicalText

/-!
# Gate configuration: values with one canonical text

Two values have one normal form where they are equal up to the order of their object members and
their numbers are the same doubles; they have one canonical text then and only then.
-/

namespace OpenBridge.GateConfig

open OpenBridge.Foundation

namespace CanonicalJson

section Same

variable (sameNumber : JsonNumber → JsonNumber → Prop)

mutual

/-- Equality of values up to the order of object members and an equality of numbers. -/
def Same : Json → Json → Prop
  | .null, .null => True
  | .bool b, .bool b' => b = b'
  | .number n, .number n' => sameNumber n n'
  | .text s, .text s' => s = s'
  | .array items, .array items' => SameItems items items'
  | .object members, .object members' =>
      members.length = members'.length ∧ SameMembers members members'
  | _, _ => False

def SameItems : List Json → List Json → Prop
  | [], [] => True
  | j :: rest, j' :: rest' => Same j j' ∧ SameItems rest rest'
  | _, _ => False

def SameMembers : List (String × Json) → List (String × Json) → Prop
  | [], _ => True
  | (name, j) :: rest, members' =>
      (∃ j', (name, j') ∈ members' ∧ Same j j') ∧ SameMembers rest members'

end

end Same

def literalValue : JsonNumber → ℚ
  | .integral n => n
  | .decimal q => q

/-- Equality of values up to the order of object members and numeric equality. -/
abbrev SameNumerically : Json → Json → Prop := Same fun m n => literalValue m = literalValue n

/-- Equality of values up to the order of object members, with numbers read as doubles. -/
abbrev SameAsDoubles : Json → Json → Prop := Same fun m n => m.toDouble = n.toDouble

/-! ## Equal values have one normal form -/

theorem uniqueKeysMembers_iff {members : List (String × Json)} :
    UniqueKeysMembers members ↔ ∀ m ∈ members, UniqueKeys m.2 := by
  induction members with
  | nil => simp [UniqueKeysMembers]
  | cons m rest ih => rw [UniqueKeysMembers, ih, List.forall_mem_cons]

theorem mem_normalMembers {members : List (String × Json)} {name : String} {a : Normal} :
    (name, a) ∈ normalMembers members ↔ ∃ j, (name, j) ∈ members ∧ normal j = a := by
  induction members with
  | nil => simp [normalMembers]
  | cons m rest ih =>
    obtain ⟨k, j⟩ := m
    rw [normalMembers, List.mem_cons, ih]
    constructor
    · rintro (heq | ⟨j', hj', ha⟩)
      · obtain ⟨rfl, rfl⟩ := Prod.mk.inj heq
        exact ⟨j, List.mem_cons_self, rfl⟩
      · exact ⟨j', List.mem_cons_of_mem _ hj', ha⟩
    · rintro ⟨j', hj', rfl⟩
      rcases List.mem_cons.mp hj' with heq | hj'
      · obtain ⟨rfl, rfl⟩ := Prod.mk.inj heq
        exact Or.inl rfl
      · exact Or.inr ⟨j', hj', rfl⟩

theorem length_normalMembers (members : List (String × Json)) :
    (normalMembers members).length = members.length := by
  have h := congrArg List.length (map_fst_normalMembers members)
  rwa [List.length_map, List.length_map] at h

theorem sort_eq_iff {ms ns : List (String × Normal)} (h : (ms.map Prod.fst).Nodup) :
    ms.insertionSort memberLe = ns.insertionSort memberLe ↔ ms.length = ns.length ∧ ms ⊆ ns := by
  constructor
  · intro heq
    have hperm : ms.Perm ns :=
      (List.perm_insertionSort memberLe ms).symm.trans
        (heq ▸ List.perm_insertionSort memberLe ns)
    exact ⟨hperm.length_eq, hperm.subset⟩
  · intro hsame
    obtain ⟨hlength, hsubset⟩ := hsame
    have hsubperm := List.subperm_of_subset h.of_map hsubset
    exact eq_of_perm_of_nodup (hsubperm.perm_of_length_le hlength.ge) h

mutual

theorem normal_eq_iff : ∀ j j' : Json, UniqueKeys j → UniqueKeys j' →
    (normal j = normal j' ↔ SameAsDoubles j j')
  | .null, j', _, _ => by cases j' <;> simp [normal, Same]
  | .bool _, j', _, _ => by cases j' <;> simp [normal, Same]
  | .number _, j', _, _ => by cases j' <;> simp [normal, Same]
  | .text _, j', _, _ => by cases j' <;> simp [normal, Same]
  | .array items, j', hunique, hunique' => by
    cases j' with
    | array items' =>
      rw [normal, normal, Normal.array.injEq, normalItems_eq_iff items items' hunique hunique']
      exact Iff.rfl
    | _ => simp [normal, Same]
  | .object members, j', hunique, hunique' => by
    cases j' with
    | object members' =>
      have hnodup : ((normalMembers members).map Prod.fst).Nodup := by
        rw [map_fst_normalMembers]
        exact hunique.1
      rw [normal, normal, Normal.object.injEq, sort_eq_iff hnodup, length_normalMembers,
        length_normalMembers, normalMembers_subset_iff members members' hunique.2 hunique'.2]
      exact Iff.rfl
    | _ => simp [normal, Same]

theorem normalItems_eq_iff : ∀ items items' : List Json, UniqueKeysItems items →
    UniqueKeysItems items' →
    (normalItems items = normalItems items' ↔
      SameItems (fun m n => m.toDouble = n.toDouble) items items')
  | [], items', _, _ => by cases items' <;> simp [normalItems, SameItems]
  | j :: rest, items', hunique, hunique' => by
    cases items' with
    | nil => simp [normalItems, SameItems]
    | cons j' rest' =>
      rw [normalItems, normalItems, List.cons.injEq, normal_eq_iff j j' hunique.1 hunique'.1,
        normalItems_eq_iff rest rest' hunique.2 hunique'.2]
      exact Iff.rfl

theorem normalMembers_subset_iff : ∀ members members' : List (String × Json),
    UniqueKeysMembers members → UniqueKeysMembers members' →
    (normalMembers members ⊆ normalMembers members' ↔
      SameMembers (fun m n => m.toDouble = n.toDouble) members members')
  | [], members', _, _ => by simp [normalMembers, SameMembers]
  | (name, j) :: rest, members', hunique, hunique' => by
    have hmember : (name, normal j) ∈ normalMembers members' ↔
        ∃ j', (name, j') ∈ members' ∧ SameAsDoubles j j' := by
      rw [mem_normalMembers]
      refine exists_congr fun j' => and_congr_right fun hmem => ?_
      have hj' := uniqueKeysMembers_iff.mp hunique' _ hmem
      rw [← normal_eq_iff j j' hunique.1 hj', eq_comm]
    rw [normalMembers, List.cons_subset, hmember,
      normalMembers_subset_iff rest members' hunique.2 hunique']
    exact Iff.rfl

end

mutual

theorem exact_normal : ∀ j : Json, FiniteNumbers j → (normal j).Exact
  | .null, _ => trivial
  | .bool _, _ => trivial
  | .number n, h => by
    obtain ⟨r, hr⟩ := toDouble_eq_ofRat n
    unfold FiniteNumbers at h
    rw [hr] at h
    unfold normal Normal.Exact
    rw [hr]
    cases hd : Double.ofRat r with
    | finite q => exact ⟨q, rfl, Double.isExact_of_ofRat hd⟩
    | infinite s =>
      rw [hd] at h
      cases h
  | .text _, _ => trivial
  | .array items, h => exact_normalItems items h
  | .object members, h => by
    have hexact := exactMembers_iff.mp (exact_normalMembers members h)
    unfold normal Normal.Exact
    exact exactMembers_iff.mpr fun m hm => hexact m ((List.mem_insertionSort _).mp hm)

theorem exact_normalItems : ∀ items : List Json, FiniteItems items → ExactItems (normalItems items)
  | [], _ => trivial
  | j :: rest, h => ⟨exact_normal j h.1, exact_normalItems rest h.2⟩

theorem exact_normalMembers : ∀ members : List (String × Json), FiniteMembers members →
    ExactMembers (normalMembers members)
  | [], _ => trivial
  | (_, j) :: rest, h => ⟨exact_normal j h.1, exact_normalMembers rest h.2⟩

end

/-! ## One canonical text -/

theorem canonicalize_eq_printed {j : Json} (hunique : UniqueKeys j) (h : FiniteNumbers j) :
    Worker.canonicalize j = .ok (String.ofList (printed (normal j))) := by
  rw [(services_agree hunique).2]
  unfold canonicalize
  rw [write_eq_printed j hunique h]
  rfl

theorem finite_of_canonicalize {j : Json} (hunique : UniqueKeys j) {t : String}
    (h : Worker.canonicalize j = .ok t) : FiniteNumbers j := by
  rw [(services_agree hunique).2] at h
  unfold canonicalize at h
  cases htext : write j with
  | error e =>
    rw [htext] at h
    cases h
  | ok cs => exact finite_of_write j hunique cs htext

theorem printed_injective {a b : Normal} (ha : a.Exact) (hb : b.Exact)
    (h : printed a = printed b) : a = b := by
  have hends : Ends [] := by
    intro c hc
    cases hc
  exact (unambiguous a ha b hb [] [] hends hends (congrArg (· ++ []) h)).1

/-- Both services write one text or refuse the value, and values that they write have one text where
they are equal with their numbers as doubles. -/
theorem canonical_text_iff {j : Json} (hunique : UniqueKeys j) :
    ControlPlane.canonicalize j = Worker.canonicalize j ∧
    ((∃ t, Worker.canonicalize j = .ok t) ↔ FiniteNumbers j) ∧
    ∀ j' : Json, UniqueKeys j' → FiniteNumbers j → FiniteNumbers j' →
      (Worker.canonicalize j = Worker.canonicalize j' ↔ SameAsDoubles j j') := by
  obtain ⟨hcontrol, hworker⟩ := services_agree hunique
  refine ⟨hcontrol.trans hworker.symm, ⟨?_, ?_⟩, ?_⟩
  · intro hwritten
    obtain ⟨t, ht⟩ := hwritten
    exact finite_of_canonicalize hunique ht
  · intro hfinite
    exact ⟨_, canonicalize_eq_printed hunique hfinite⟩
  · intro j' hunique' hfinite hfinite'
    rw [canonicalize_eq_printed hunique hfinite, canonicalize_eq_printed hunique' hfinite',
      ← normal_eq_iff j j' hunique hunique']
    constructor
    · intro htext
      exact printed_injective (exact_normal j hfinite) (exact_normal j' hfinite')
        (String.ofList_injective (Except.ok.inj htext))
    · intro hnormal
      rw [hnormal]

/-- An object with its members in either order. -/
theorem canonical_text_iff_reordered :
    UniqueKeys (.object [("a", .null), ("b", .bool true)]) ∧
    ControlPlane.canonicalize (.object [("a", .null), ("b", .bool true)]) =
      Worker.canonicalize (.object [("a", .null), ("b", .bool true)]) ∧
    (Worker.canonicalize (.object [("a", .null), ("b", .bool true)]) =
        Worker.canonicalize (.object [("b", .bool true), ("a", .null)]) ↔
      SameAsDoubles (.object [("a", .null), ("b", .bool true)])
        (.object [("b", .bool true), ("a", .null)])) := by
  have hunique : UniqueKeys (.object [("a", .null), ("b", .bool true)]) := by
    simp [UniqueKeys, UniqueKeysMembers]
  have hunique' : UniqueKeys (.object [("b", .bool true), ("a", .null)]) := by
    simp [UniqueKeys, UniqueKeysMembers]
  exact ⟨hunique, (canonical_text_iff hunique).1, (canonical_text_iff hunique).2.2 _ hunique'
    ⟨trivial, trivial, trivial⟩ ⟨trivial, trivial, trivial⟩⟩

/-- Two integers that are one double have one text. -/
theorem canonical_text_rounds :
    ¬ (∀ j : Json, UniqueKeys j →
      (∃ t, ControlPlane.canonicalize j = .ok t ∧ Worker.canonicalize j = .ok t) ∧
      ∀ j' : Json, UniqueKeys j' →
        (Worker.canonicalize j = Worker.canonicalize j' ↔ SameNumerically j j')) := by
  intro h
  have hdouble : (JsonNumber.integral 9007199254740993).toDouble =
      (JsonNumber.integral 9007199254740992).toDouble := by decide +kernel
  have htext : Worker.canonicalize (.number (.integral 9007199254740993)) =
      Worker.canonicalize (.number (.integral 9007199254740992)) := by
    unfold Worker.canonicalize Worker.write writeWith
    rw [hdouble]
  have hsame := ((h (.number (.integral 9007199254740993)) trivial).2
    (.number (.integral 9007199254740992)) trivial).mp htext
  have hvalue : (9007199254740993 : ℚ) = 9007199254740992 := hsame
  norm_num at hvalue

end CanonicalJson

end OpenBridge.GateConfig
