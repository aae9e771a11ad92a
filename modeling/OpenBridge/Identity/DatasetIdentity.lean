import OpenBridge.Foundation.ReadDouble
import OpenBridge.Identity.RunIdentity

/-!
# Sorting by a key

A stable sort keeps the order of the elements of one key, and a sorted list is determined by its
elements of each key.
-/

namespace OpenBridge.Foundation

variable {α κ : Type} [LinearOrder κ] (key : α → κ)

theorem filter_insertionSort (k : κ) (l : List α) :
    (l.insertionSort fun a b => key a ≤ key b).filter (fun x => key x = k) =
      l.filter fun x => key x = k := by
  have hpairwise : (l.filter fun x => key x = k).Pairwise fun a b => key a ≤ key b :=
    List.pairwise_of_forall_mem_list fun a ha b hb => by
      rw [of_decide_eq_true (List.mem_filter.mp ha).2, of_decide_eq_true (List.mem_filter.mp hb).2]
  have hsub := ((List.sublist_insertionSort hpairwise List.filter_sublist).filter
    fun x => decide (key x = k))
  rw [List.filter_filter] at hsub
  simp only [Bool.and_self] at hsub
  exact (hsub.eq_of_length ((List.perm_insertionSort _ l).filter _).length_eq.symm).symm

variable {key}

theorem eq_of_filter_eq {xs ys : List α} (hx : xs.Pairwise fun a b => key a ≤ key b)
    (hy : ys.Pairwise fun a b => key a ≤ key b)
    (h : ∀ k, (xs.filter fun x => key x = k) = ys.filter fun x => key x = k) : xs = ys := by
  have hmem : ∀ z, z ∈ xs ↔ z ∈ ys := by
    intro z
    have hz : z ∈ (xs.filter fun x => key x = key z) ↔ z ∈ ys.filter fun x => key x = key z := by
      rw [h]
    simpa using hz
  induction xs generalizing ys with
  | nil => exact (List.eq_nil_iff_forall_not_mem.mpr fun z hz => absurd ((hmem z).mpr hz)
      List.not_mem_nil).symm
  | cons x xs ih =>
    cases ys with
    | nil => exact absurd ((hmem x).mp List.mem_cons_self) List.not_mem_nil
    | cons y ys =>
      obtain ⟨hxs, hrest⟩ := List.pairwise_cons.mp hx
      obtain ⟨hys, hrest'⟩ := List.pairwise_cons.mp hy
      -- each head is the least of both lists, so both have one key
      have hle : key x ≤ key y := by
        rcases List.mem_cons.mp ((hmem y).mpr List.mem_cons_self) with rfl | hy
        · exact le_rfl
        · exact hxs y hy
      have hge : key y ≤ key x := by
        rcases List.mem_cons.mp ((hmem x).mp List.mem_cons_self) with rfl | hx
        · exact le_rfl
        · exact hys x hx
      have hkey : key y = key x := le_antisymm hge hle
      have hhead := h (key x)
      rw [List.filter_cons_of_pos (by simp), List.filter_cons_of_pos (by simp [hkey])] at hhead
      obtain ⟨rfl, -⟩ := List.cons.inj hhead
      have hfilters : ∀ k, (xs.filter fun x => key x = k) = ys.filter fun x => key x = k := by
        intro k
        have hk := h k
        rw [List.filter_cons, List.filter_cons] at hk
        split at hk
        · exact (List.cons.inj hk).2
        · exact hk
      rw [ih hrest hrest' hfilters fun z => ?_]
      have hz : z ∈ (xs.filter fun x => key x = key z) ↔ z ∈ ys.filter fun x => key x = key z := by
        rw [hfilters]
      simpa using hz

namespace KeyText

theorem intercalate_last_injective {sep : Char} {xs ys : List String} {a b : String}
    (hx : ∀ x ∈ xs, sep ∉ x.toList) (hy : ∀ y ∈ ys, sep ∉ y.toList) (hlength : xs.length = ys.length)
    (h : (String.singleton sep).intercalate (xs ++ [a]) =
      (String.singleton sep).intercalate (ys ++ [b])) : xs = ys ∧ a = b := by
  induction xs generalizing ys with
  | nil =>
    obtain rfl : ys = [] := List.length_eq_zero_iff.mp hlength.symm
    simpa using h
  | cons x xs ih =>
    cases ys with
    | nil => simp at hlength
    | cons y ys =>
      rw [List.cons_append, List.cons_append, String.intercalate_cons_of_ne_nil (by simp),
        String.intercalate_cons_of_ne_nil (by simp)] at h
      have hlist := congrArg String.toList h
      simp only [String.toList_append, String.toList_singleton, List.append_assoc,
        List.singleton_append] at hlist
      obtain ⟨hfirst, hrest⟩ := split_first (hx x List.mem_cons_self) (hy y List.mem_cons_self) hlist
      obtain ⟨rfl, rfl⟩ := ih (fun z hz => hx z (List.mem_cons_of_mem _ hz))
        (fun z hz => hy z (List.mem_cons_of_mem _ hz)) (by simpa using hlength)
        (String.toList_inj.mp hrest)
      rw [String.toList_inj.mp hfirst]
      exact ⟨rfl, rfl⟩

end KeyText

end OpenBridge.Foundation

/-!
# Identity: what a dataset hash names

Two lists of samples have one hash when their lines in event-time order are the same text.
-/

namespace OpenBridge.Identity

open OpenBridge.Foundation
open OpenBridge.GateConfig
open OpenBridge.Samples

namespace DatasetHash

structure Datum where
  eventTsMs : ℤ
  pv : Option Double
  sp : Option Double
  op : Option Double
  vp : Option Double
  mode : String
  quality : String

def datum (s : CplmNormalizedSample) : Datum :=
  ⟨s.eventTsMs, s.pv, s.sp, s.op, s.vp, s.mode, s.quality⟩

def NamesData (a b : List CplmNormalizedSample) : Prop :=
  of a = of b ↔ (a.map datum).Perm (b.map datum)

def TiedAlike (a b : List CplmNormalizedSample) : Prop :=
  ∀ t : ℤ, (a.filter fun s => s.eventTsMs = t).map datum = (b.filter fun s => s.eventTsMs = t).map datum

/-- The free text of a sample is free of the separators: no bar in the mode, no line end. -/
structure Plain (s : CplmNormalizedSample) : Prop where
  mode_bar : '|' ∉ s.mode.toList
  mode_line : '\n' ∉ s.mode.toList
  quality_line : '\n' ∉ s.quality.toList

def Exact (d : Option Double) : Prop := ∀ q : ℚ, d = some (.finite q) → Double.IsExact q

def ExactNumbers (s : CplmNormalizedSample) : Prop := ∀ d ∈ [s.pv, s.sp, s.op, s.vp], Exact d

/-! ## Printed numbers -/

theorem parse_doubleText {d : Option Double} (h : Exact d) :
    parseDouble (doubleText d) = some d := by
  match d with
  | none => decide +kernel
  | some (.infinite false) => decide +kernel
  | some (.infinite true) => decide +kernel
  | some (.finite q) => exact parseDouble_javaText (h q rfl)

theorem doubleText_injective {d e : Option Double} (hd : Exact d) (he : Exact e)
    (h : doubleText d = doubleText e) : d = e := by
  have hparse := congrArg parseDouble h
  rw [parse_doubleText hd, parse_doubleText he] at hparse
  exact Option.some.inj hparse

/-- The text of an optional number, as `line` writes it. -/
def optionalText (d : Option Double) : String := (d.map javaText).getD "null"

theorem optionalText_injective {d e : Option Double} (hd : Exact d) (he : Exact e)
    (h : optionalText d = optionalText e) : d = e := by
  have hnull : parseDouble "null" = none := by decide +kernel
  have hsome : ∀ {x : Double}, Exact (some x) → javaText x ≠ "null" := fun hx hnot => by
    have hparse := parse_doubleText hx
    unfold doubleText at hparse
    rw [Option.map_some, Option.getD_some, hnot, hnull] at hparse
    cases hparse
  cases d with
  | none =>
    cases e with
    | none => rfl
    | some y => exact absurd h.symm (hsome he)
  | some x =>
    cases e with
    | none => exact absurd h (hsome hd)
    | some y => exact doubleText_injective hd he h

open DecimalDigits in
theorem not_mem_javaText {sep : Char} (hsep : sep = '|' ∨ sep = '\n') {x : Double}
    (h : Exact (some x)) : sep ∉ (javaText x).toList := by
  have hplain : sep.isDigit = false ∧ sep ≠ '.' ∧ sep ≠ '-' ∧ sep ≠ 'E' ∧
      sep ∉ "-Infinity".toList ∧ sep ∉ "Infinity".toList ∧ sep ∉ "0.0".toList := by
    rcases hsep with rfl | rfl
    · decide
    · decide
  obtain ⟨hdigit, hpoint, hsign, hmarker, hneg, hpos, hzero⟩ := hplain
  match x with
  | .infinite true => exact hneg
  | .infinite false => exact hpos
  | .finite q =>
    by_cases hq : q = 0
    · subst hq
      exact hzero
    · have hexact : Double.IsExact |q| := by
        rcases abs_choice q with habs | habs
        · rw [habs]
          exact h q rfl
        · rw [habs]
          exact (h q rfl).neg
      have hwf := (shortest_spec (abs_pos.mpr hq) hexact).1
      have hbody : sep ∉ javaBody (shortest |q|) := by
        have hends : sep ∉ ['.', '0'] := fun hmem => by
          rcases List.mem_cons.mp hmem with rfl | hmem
          · exact hpoint rfl
          · rw [List.mem_singleton.mp hmem] at hdigit
            cases hdigit
        have hpositional := not_mem_of_digits (fun c => mem_positional hwf (c := c))
          ⟨hdigit, hpoint⟩
        have hmantissa := not_mem_of_digits (fun c => mem_mantissa hwf (c := c)) ⟨hdigit, hpoint⟩
        have hdigits := not_mem_of_digits (fun c hc => Or.inl (hwf.digits c hc)) ⟨hdigit, hpoint⟩
        have hexponent := KeyText.not_mem_toString hdigit hsign ((shortest |q|).point - 1)
        unfold javaBody
        split
        · split
          · exact fun hmem => (List.mem_append.mp hmem).elim hpositional hends
          · exact hpositional
        · intro hmem
          rcases List.mem_append.mp hmem with hmem | hmem
          · split at hmem
            · exact (List.mem_append.mp hmem).elim hdigits hends
            · exact hmantissa hmem
          · rcases List.mem_cons.mp hmem with rfl | hmem
            · exact hmarker rfl
            · exact hexponent hmem
      rw [toList_javaText hq, signed]
      split
      · exact fun hmem => (List.mem_cons.mp hmem).elim hsign hbody
      · exact hbody

/-! ## The lines of a list -/

variable {s s' : CplmNormalizedSample} {a b : List CplmNormalizedSample}

def Datum.fields (d : Datum) : List String :=
  [toString d.eventTsMs, doubleText d.pv, doubleText d.sp, doubleText d.op, optionalText d.vp, d.mode]

def Datum.line (d : Datum) : String :=
  "|".intercalate (d.fields ++ [d.quality]) ++ "\n"

theorem line_datum : line s = (datum s).line := rfl

theorem not_mem_fields {sep : Char} (hsep : sep = '|' ∨ sep = '\n') (h : Plain s)
    (hexact : ExactNumbers s) : ∀ x ∈ (datum s).fields, sep ∉ x.toList := by
  have hnumber : ∀ d ∈ [s.pv, s.sp, s.op, s.vp], sep ∉ (doubleText d).toList ∧
      sep ∉ (optionalText d).toList := by
    intro d hd
    have hd := hexact d hd
    cases d with
    | none =>
      rcases hsep with rfl | rfl
      · decide
      · decide
    | some x => exact ⟨not_mem_javaText hsep hd, not_mem_javaText hsep hd⟩
  have htime : sep ∉ (toString s.eventTsMs).toList := by
    rcases hsep with rfl | rfl
    · exact KeyText.not_mem_toString rfl (by decide) _
    · exact KeyText.not_mem_toString rfl (by decide) _
  have hmode : sep ∉ s.mode.toList := by
    rcases hsep with rfl | rfl
    · exact h.mode_bar
    · exact h.mode_line
  intro x hx
  simp only [Datum.fields, datum, List.mem_cons, List.not_mem_nil, or_false] at hx
  rcases hx with rfl | rfl | rfl | rfl | rfl | rfl
  · exact htime
  · exact (hnumber _ (by simp)).1
  · exact (hnumber _ (by simp)).1
  · exact (hnumber _ (by simp)).1
  · exact (hnumber _ (by simp)).2
  · exact hmode

theorem line_injective (h : Plain s) (h' : Plain s') (hexact : ExactNumbers s)
    (hexact' : ExactNumbers s') (hline : "|".intercalate ((datum s).fields ++ [s.quality]) =
      "|".intercalate ((datum s').fields ++ [s'.quality])) : datum s = datum s' := by
  obtain ⟨hfields, hquality⟩ := KeyText.intercalate_last_injective
    (not_mem_fields (Or.inl rfl) h hexact) (not_mem_fields (Or.inl rfl) h' hexact') rfl hline
  simp only [Datum.fields, datum, List.cons.injEq, and_true] at hfields
  obtain ⟨htime, hpv, hsp, hop, hvp, hmode⟩ := hfields
  unfold datum
  rw [KeyText.toString_injective htime,
    doubleText_injective (hexact _ (by simp)) (hexact' _ (by simp)) hpv,
    doubleText_injective (hexact _ (by simp)) (hexact' _ (by simp)) hsp,
    doubleText_injective (hexact _ (by simp)) (hexact' _ (by simp)) hop,
    optionalText_injective (hexact _ (by simp)) (hexact' _ (by simp)) hvp, hmode, hquality]

theorem lineEnd_not_mem (h : Plain s) (hexact : ExactNumbers s) :
    '\n' ∉ ("|".intercalate ((datum s).fields ++ [s.quality])).toList := by
  have hfields := not_mem_fields (Or.inr rfl) h hexact
  have hall : ∀ x ∈ (datum s).fields ++ [s.quality], '\n' ∉ x.toList := by
    intro x hx
    rcases List.mem_append.mp hx with hx | hx
    · exact hfields x hx
    · rw [List.mem_singleton.mp hx]
      exact h.quality_line
  generalize (datum s).fields ++ [s.quality] = xs at hall ⊢
  rw [String.toList_intercalate]
  intro hmem
  induction xs with
  | nil => simp at hmem
  | cons x rest ih =>
    cases rest with
    | nil => exact hall x List.mem_cons_self (by simpa using hmem)
    | cons y rest =>
      rw [List.map_cons, List.map_cons, List.intercalate_cons_cons, List.mem_append,
        List.mem_append] at hmem
      rcases hmem with (hmem | hmem) | hmem
      · exact hall x List.mem_cons_self hmem
      · exact absurd hmem (by decide)
      · exact ih (fun z hz => hall z (List.mem_cons_of_mem _ hz)) hmem

theorem join_line_injective (ha : ∀ s ∈ a, Plain s) (hb : ∀ s ∈ b, Plain s)
    (hxa : ∀ s ∈ a, ExactNumbers s) (hxb : ∀ s ∈ b, ExactNumbers s)
    (h : String.join (a.map line) = String.join (b.map line)) : a.map datum = b.map datum := by
  induction a generalizing b with
  | nil =>
    cases b with
    | nil => rfl
    | cons y b =>
      have hlist := congrArg String.toList h
      simp [line] at hlist
  | cons x a ih =>
    cases b with
    | nil =>
      have hlist := congrArg String.toList h
      simp [line] at hlist
    | cons y b =>
      have hlist := congrArg String.toList h
      rw [List.map_cons, List.map_cons, String.join_cons, String.join_cons, line_datum, line_datum,
        Datum.line, Datum.line] at hlist
      simp only [String.toList_append, List.append_assoc] at hlist
      obtain ⟨hfirst, hrest⟩ := KeyText.split_first
        (lineEnd_not_mem (ha x List.mem_cons_self) (hxa x List.mem_cons_self))
        (lineEnd_not_mem (hb y List.mem_cons_self) (hxb y List.mem_cons_self)) hlist
      rw [List.map_cons, List.map_cons, line_injective (ha x List.mem_cons_self)
        (hb y List.mem_cons_self) (hxa x List.mem_cons_self) (hxb y List.mem_cons_self)
        (String.toList_inj.mp hfirst), ih (fun z hz => ha z (List.mem_cons_of_mem _ hz))
        (fun z hz => hb z (List.mem_cons_of_mem _ hz))
        (fun z hz => hxa z (List.mem_cons_of_mem _ hz))
        (fun z hz => hxb z (List.mem_cons_of_mem _ hz)) (String.toList_inj.mp hrest)]

/-! ## Event-time order -/

def ordered (samples : List CplmNormalizedSample) : List CplmNormalizedSample :=
  samples.insertionSort fun a b => a.eventTsMs ≤ b.eventTsMs

theorem mem_ordered : s ∈ ordered a ↔ s ∈ a := List.mem_insertionSort _

theorem ordered_filter (a : List CplmNormalizedSample) (t : ℤ) :
    ((ordered a).map datum).filter (fun d => d.eventTsMs = t) =
      (a.filter fun s => s.eventTsMs = t).map datum := by
  rw [List.filter_map]
  exact congrArg (List.map datum) (filter_insertionSort CplmNormalizedSample.eventTsMs t a)

theorem ordered_pairwise (a : List CplmNormalizedSample) :
    ((ordered a).map datum).Pairwise fun d e => d.eventTsMs ≤ e.eventTsMs :=
  List.pairwise_map.mpr
    (List.pairwise_insertionSort (fun x y : CplmNormalizedSample => x.eventTsMs ≤ y.eventTsMs) a)

theorem ordered_eq_iff : (ordered a).map datum = (ordered b).map datum ↔ TiedAlike a b := by
  constructor
  · intro h t
    rw [← ordered_filter, ← ordered_filter, h]
  · intro h
    refine eq_of_filter_eq (ordered_pairwise a) (ordered_pairwise b) fun t => ?_
    rw [ordered_filter, ordered_filter]
    exact h t

theorem perm_of_tiedAlike (h : TiedAlike a b) : (a.map datum).Perm (b.map datum) := by
  have hperm : ∀ l, ((ordered l).map datum).Perm (l.map datum) := fun l =>
    (List.perm_insertionSort _ l).map datum
  exact (hperm a).symm.trans ((ordered_eq_iff.mpr h) ▸ hperm b)

theorem text_ordered (a : List CplmNormalizedSample) :
    text a = String.join (((ordered a).map datum).map Datum.line) := by
  rw [List.map_map]
  rfl

theorem text_eq_iff (ha : ∀ s ∈ a, Plain s) (hb : ∀ s ∈ b, Plain s)
    (hxa : ∀ s ∈ a, ExactNumbers s) (hxb : ∀ s ∈ b, ExactNumbers s) :
    text a = text b ↔ TiedAlike a b := by
  rw [← ordered_eq_iff]
  constructor
  · exact join_line_injective (fun s hs => ha s (mem_ordered.mp hs))
      (fun s hs => hb s (mem_ordered.mp hs)) (fun s hs => hxa s (mem_ordered.mp hs))
      fun s hs => hxb s (mem_ordered.mp hs)
  · intro h
    rw [text_ordered, text_ordered, h]

theorem of_eq_iff (hsha : CanonicalJson.sha256Hex (text a) = CanonicalJson.sha256Hex (text b) →
    text a = text b) : of a = of b ↔ text a = text b := by
  have hempty : ∀ content, empty ≠ CanonicalJson.sha256Hex content := fun content h => by
    have hlength := congrArg String.length h
    rw [ProfileHash.length_sha256Hex] at hlength
    exact absurd hlength (by decide)
  have hcons : ∀ (x : CplmNormalizedSample) (l : List CplmNormalizedSample), text (x :: l) ≠ "" := by
    intro x l h
    have hmem := mem_ordered.mpr (List.mem_cons_self : x ∈ x :: l)
    obtain ⟨before, after, hsplit⟩ := List.append_of_mem hmem
    rw [text_ordered, hsplit] at h
    have hlist := congrArg String.toList h
    simp [Datum.line] at hlist
  unfold of
  cases a with
  | nil =>
    cases b with
    | nil => exact iff_of_true rfl rfl
    | cons y b => exact iff_of_false (hempty _) (hcons y b).symm
  | cons x a =>
    cases b with
    | nil => exact iff_of_false (hempty _).symm (hcons x a)
    | cons y b =>
      rw [if_neg (List.cons_ne_nil x a), if_neg (List.cons_ne_nil y b)]
      exact ⟨hsha, fun h => by rw [h]⟩

/-- **Under free text without separators the hash names exactly the data when lists of one content
list the samples of each time in one order**, and only then. -/
theorem namesData_iff (ha : ∀ s ∈ a, Plain s) (hb : ∀ s ∈ b, Plain s)
    (hxa : ∀ s ∈ a, ExactNumbers s) (hxb : ∀ s ∈ b, ExactNumbers s)
    (hsha : CanonicalJson.sha256Hex (text a) = CanonicalJson.sha256Hex (text b) →
      text a = text b) :
    NamesData a b ↔ ((a.map datum).Perm (b.map datum) → TiedAlike a b) := by
  unfold NamesData
  rw [of_eq_iff hsha, text_eq_iff ha hb hxa hxb]
  exact ⟨Iff.mpr, fun h => ⟨perm_of_tiedAlike, h⟩⟩

/-- Two samples that arrive in either order. -/
theorem namesData_reordered :
    let early : CplmNormalizedSample := { eventTsMs := 1, pv := none, sp := none, op := none }
    let late : CplmNormalizedSample := { eventTsMs := 2, pv := none, sp := none, op := none }
    NamesData [late, early] [early, late] ↔
      (([late, early].map datum).Perm ([early, late].map datum) →
        TiedAlike [late, early] [early, late]) := by
  intro early late
  have hplain : ∀ s ∈ [late, early], Plain s := by
    intro s hs
    simp only [List.mem_cons, List.not_mem_nil, or_false] at hs
    rcases hs with rfl | rfl <;> exact ⟨by decide, by decide, by decide⟩
  have hexact : ∀ s ∈ [late, early], ExactNumbers s := by
    intro s hs d hd q hq
    simp only [List.mem_cons, List.not_mem_nil, or_false] at hs
    subst hq
    rcases hs with rfl | rfl <;> simp [early, late] at hd
  have hswap : ∀ {s}, s ∈ [early, late] → s ∈ [late, early] := fun h => by
    simpa [or_comm] using h
  exact namesData_iff hplain (fun s hs => hplain s (hswap hs)) hexact
    (fun s hs => hexact s (hswap hs)) fun _ => rfl

/-- A bar in the free text: two samples that differ have one hash. -/
theorem not_namesData_moved_bar : ¬ ∀ a b : List CplmNormalizedSample, NamesData a b := by
  intro h
  have hhash : of [{ mode := "AUTO|GOOD", quality := "HELD" }] =
      of [{ mode := "AUTO", quality := "GOOD|HELD" }] := by
    unfold of
    rw [if_neg (List.cons_ne_nil _ _), if_neg (List.cons_ne_nil _ _)]
    exact congrArg CanonicalJson.sha256Hex (show text _ = text _ from rfl)
  have hperm := List.singleton_perm_singleton.mp ((h _ _).mp hhash)
  exact absurd (congrArg Datum.mode hperm) (by decide)

end DatasetHash

end OpenBridge.Identity
