import OpenBridge.GateConfig.BundleProfileMapper
import OpenBridge.GateConfig.GateConfigBundle

/-!
# Gate configuration: the types of the catalogue and the setters of the table

The validation checks a value by the catalogue's type of its property, the mapper reads it by the
setter of its row.
-/

namespace OpenBridge.GateConfig

open OpenBridge.Foundation

namespace BundleProfileMapper

/-! ## What a setter reads -/

def sourceType (f : ProfileField) : PropertyType :=
  match f.kind with
  | .number => .number
  | .integer => if f = .persistenceWindows then .number else .integer
  | .role => .enum

def isRole (s : String) : Bool := (roleOf (toUpperRoot s)).isSome

def reads : PropertyType → Json → Bool
  | .number, .number n => n.toDouble.isFinite
  | .integer, v => v.isIntegralNumber
  | .enum, .text s => isRole s
  | _, _ => false

theorem isOk_map {α β ε : Type} (f : α → β) (r : Except ε α) : (r.map f).isOk = r.isOk := by
  cases r <;> rfl

theorem isOk_finiteNumber (v : Json) (property : String) :
    (finiteNumber v property).isOk = reads .number v := by
  unfold finiteNumber
  cases v with
  | number n =>
    dsimp only
    split
    · rename_i hfinite
      exact hfinite.symm
    · rename_i hfinite
      exact (Bool.eq_false_iff.mpr hfinite).symm
  | null | bool | text | array | object => rfl

theorem isOk_num (v : Json) (property : String) :
    (num v property).isOk = reads .number v :=
  (isOk_map _ _).trans (isOk_finiteNumber v property)

theorem isOk_percent (v : Json) (property : String) :
    (percent v property).isOk = reads .number v :=
  (isOk_map _ _).trans (isOk_finiteNumber v property)

theorem isOk_episodes (v : Json) (property : String) :
    (episodes v property).isOk = reads .number v :=
  (isOk_map _ _).trans (isOk_finiteNumber v property)

theorem isOk_integer (v : Json) (property : String) :
    (integer v property).isOk = reads .integer v := by
  unfold integer
  split
  · rfl
  · rename_i hinteger
    cases v with
    | number n =>
      cases n with
      | integral n => exact absurd rfl (hinteger n)
      | decimal q => rfl
    | null | bool | text | array | object => rfl

theorem isOk_role (v : Json) (property : String) : (role v property).isOk = reads .enum v := by
  unfold role
  cases v with
  | text s =>
    change _ = (roleOf (toUpperRoot s)).isSome
    cases hrole : roleOf (toUpperRoot s) with
    | none =>
      dsimp only
      rw [hrole]
      rfl
    | some r =>
      dsimp only
      rw [hrole]
      rfl
  | null | bool | number | array | object => rfl

theorem isOk_read_of_row : ∀ row ∈ profileTable, ∀ (v : Json) (property : String),
    (row.2.read v property).isOk = reads (sourceType row.2.field) v := by
  unfold profileTable
  simp only [List.forall_mem_cons]
  and_intros <;> first
    | exact isOk_num
    | exact isOk_integer
    | exact isOk_role
    | exact isOk_percent
    | exact isOk_episodes
    | exact fun _ h => absurd h List.not_mem_nil

theorem mem_profileTable {property : String} {s : Setter} (h : setter property = some s) :
    (property, s) ∈ profileTable := by
  obtain ⟨before, after, htable, -⟩ := List.lookup_eq_some_iff.mp h
  rw [htable]
  exact List.mem_append_right before List.mem_cons_self

theorem isOk_read {property : String} {s : Setter} (h : setter property = some s) (v : Json) :
    (s.read v property).isOk = reads (sourceType s.field) v :=
  isOk_read_of_row (property, s) (mem_profileTable h) v property

/-! ## What the catalogue checks -/

/-- The catalogue's entry of a row has the type that the row reads, and its choices are roles. -/
def agrees (e : PropertyCatalogue.Entry) (f : ProfileField) : Bool :=
  e.type = sourceType f ∧ (e.type = .enum → e.enumValues ≠ [] ∧ e.enumValues.all isRole)

theorem agrees_of_row : ∀ row ∈ profileTable.map fun row => (row.1, row.2.field),
    (PropertyCatalogue.find row.1).any (agrees · row.2) = true := by
  decide +kernel

theorem agrees_of_setter {property : String} {s : Setter} (h : setter property = some s) :
    ∃ e, PropertyCatalogue.find property = some e ∧ agrees e s.field = true := by
  have hrow := agrees_of_row (property, s.field)
    (List.mem_map.mpr ⟨(property, s), mem_profileTable h, rfl⟩)
  cases hfind : PropertyCatalogue.find property with
  | none =>
    rw [hfind] at hrow
    cases hrow
  | some e =>
    rw [hfind] at hrow
    exact ⟨e, rfl, hrow⟩

theorem sourceType_cases (f : ProfileField) :
    sourceType f = .number ∨ sourceType f = .integer ∨ sourceType f = .enum := by
  unfold sourceType
  split
  · exact Or.inl rfl
  · split
    · exact Or.inl rfl
    · exact Or.inr (Or.inl rfl)
  · exact Or.inr (Or.inr rfl)

theorem find_of_checkProperty {property : String} {v : Json}
    (hcheck : GateConfigBundle.checkProperty property v = none) :
    ∃ e, PropertyCatalogue.find property = some e := by
  unfold GateConfigBundle.checkProperty at hcheck
  split at hcheck
  · cases hcheck
  · exact ⟨_, ‹_›⟩

theorem reads_number_of_check {property : String} {e : PropertyCatalogue.Entry} {v : Json}
    (hfind : PropertyCatalogue.find property = some e)
    (htype : e.type = .number ∨ e.type = .integer) (hnull : v.isNull = false)
    (hreset : isReset v = false)
    (hcheck : GateConfigBundle.checkProperty property v = none) : reads .number v = true := by
  unfold GateConfigBundle.checkProperty at hcheck
  rw [hfind] at hcheck
  simp only [hnull, hreset, Bool.false_eq_true, if_false] at hcheck
  cases v with
  | number n =>
    rcases htype with htype | htype <;>
    · rw [htype] at hcheck
      dsimp only at hcheck
      split at hcheck
      · cases hcheck
      · rename_i hfinite
        exact Decidable.not_not.mp hfinite
  | null | bool | text | array | object =>
    rcases htype with htype | htype <;>
    · rw [htype] at hcheck
      cases hcheck

theorem choice_of_check {property : String} {e : PropertyCatalogue.Entry} {v : Json}
    (hfind : PropertyCatalogue.find property = some e) (htype : e.type = .enum)
    (hvalues : e.enumValues ≠ []) (hnull : v.isNull = false) (hreset : isReset v = false)
    (hcheck : GateConfigBundle.checkProperty property v = none) :
    ∃ s ∈ e.enumValues, v = .text s := by
  unfold GateConfigBundle.checkProperty at hcheck
  rw [hfind] at hcheck
  simp only [hnull, hreset, Bool.false_eq_true, if_false] at hcheck
  rw [htype] at hcheck
  cases v with
  | text s =>
    dsimp only at hcheck
    split at hcheck
    · rename_i hmem
      rcases hmem with hmem | hmem
      · exact absurd hmem hvalues
      · exact ⟨s, hmem, rfl⟩
    · cases hcheck
  | null | bool | number | array | object => cases hcheck

theorem reads_of_checkProperty {property : String} {s : Setter} {v : Json}
    (h : setter property = some s) (hnull : v.isNull = false) (hreset : isReset v = false)
    (hliteral : sourceType s.field = .integer → v.isNumber = true → v.isIntegralNumber = true)
    (hcheck : GateConfigBundle.checkProperty property v = none) :
    reads (sourceType s.field) v = true := by
  obtain ⟨e, hfind, hagrees⟩ := agrees_of_setter h
  obtain ⟨htype, hroles⟩ := of_decide_eq_true hagrees
  rcases sourceType_cases s.field with hsource | hsource | hsource
  · rw [hsource] at htype ⊢
    exact reads_number_of_check hfind (Or.inl htype) hnull hreset hcheck
  · rw [hsource] at htype ⊢
    have hnumber := reads_number_of_check hfind (Or.inr htype) hnull hreset hcheck
    cases v with
    | number n => exact hliteral hsource rfl
    | null | bool | text | array | object => cases hnumber
  · rw [hsource] at htype ⊢
    obtain ⟨hvalues, hall⟩ := hroles htype
    obtain ⟨role, hmem, rfl⟩ := choice_of_check hfind htype hvalues hnull hreset hcheck
    exact List.all_eq_true.mp hall role hmem

theorem number_of_response : ∀ property ∈ responseProperties,
    (PropertyCatalogue.find property).any
      (fun e => e.type = .number ∨ e.type = .integer) = true := by
  decide +kernel

theorem isNumber_of_checkProperty {property : String} {v : Json}
    (h : property ∈ responseProperties) (hnull : v.isNull = false) (hreset : isReset v = false)
    (hcheck : GateConfigBundle.checkProperty property v = none) : v.isNumber = true := by
  obtain ⟨e, hfind⟩ := find_of_checkProperty hcheck
  have htype := number_of_response property h
  rw [hfind] at htype
  have hnumber := reads_number_of_check hfind (of_decide_eq_true htype) hnull hreset hcheck
  cases v with
  | number n => rfl
  | null | bool | text | array | object => cases hnumber

end BundleProfileMapper

end OpenBridge.GateConfig
