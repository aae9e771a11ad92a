import Mathlib
import OpenBridge.Foundation.Dict
import OpenBridge.LivePlane.LiveMetric

/-!
# Live plane: the snapshot record is read back

The publisher escapes the quotation mark only.
-/

namespace OpenBridge.LivePlane

open OpenBridge.Foundation
open JsonText (quote backslash comma colon openBrace closeBrace isWs isPlain skipWs expect hexValue
  simpleEscape hexUnit stringBody value members memberTail isNumberUnit)
open AlarmMetricPublisher (escaped valueJson snapshotJson)

variable {ν : Type}

/-! ## Strings -/

/-- A unit that the publisher's string keeps: neither a reverse solidus nor a control character. -/
def survives (c : CodeUnit) : Bool := c ≠ backslash ∧ ¬ c < 32

theorem escaped_nil : escaped [] = [] := rfl

theorem escaped_quote (s : List CodeUnit) :
    escaped (quote :: s) = backslash :: quote :: escaped s := by
  unfold escaped
  rw [List.flatMap_cons, if_pos rfl]
  rfl

theorem escaped_cons {c : CodeUnit} (h : c ≠ quote) (s : List CodeUnit) :
    escaped (c :: s) = c :: escaped s := by
  unfold escaped
  rw [List.flatMap_cons, if_neg h]
  rfl

theorem stringBody_escape {e u : CodeUnit} (he : e ≠ 117) (h : simpleEscape e = some u)
    (cs : List CodeUnit) :
    stringBody (backslash :: e :: cs) = (stringBody cs).map fun p => (u :: p.1, p.2) := by
  conv_lhs => unfold stringBody
  rw [if_neg (by decide), if_pos rfl]
  dsimp only
  rw [if_neg he, h]
  rfl

theorem stringBody_hex (h₁ h₂ h₃ h₄ : CodeUnit) (cs : List CodeUnit) :
    stringBody (backslash :: 117 :: h₁ :: h₂ :: h₃ :: h₄ :: cs) =
      (hexUnit h₁ h₂ h₃ h₄).bind fun u => (stringBody cs).map fun p => (u :: p.1, p.2) := by
  conv_lhs => unfold stringBody
  rw [if_neg (by decide), if_pos rfl]
  dsimp only
  rw [if_pos rfl]

/-- What the reader makes of a text, when it finds the closing quotation mark where it was
written. -/
structure StringRead (s c : List CodeUnit) : Prop where
  length_le : c.length ≤ s.length
  exact : s.all survives = true → c = s
  shorter : s.all survives = false → c.length < s.length

theorem StringRead.cons {s c : List CodeUnit} (h : StringRead s c) {u : CodeUnit}
    (hu : survives u = true) : StringRead (u :: s) (u :: c) where
  length_le := Nat.succ_le_succ h.length_le
  exact := by
    rw [List.all_cons, hu, Bool.true_and]
    intro hs
    rw [h.exact hs]
  shorter := by
    rw [List.all_cons, hu, Bool.true_and]
    exact fun hs => Nat.succ_lt_succ (h.shorter hs)

theorem StringRead.all_survive {s : List CodeUnit} (h : StringRead s s) :
    s.all survives = true := by
  by_contra hs
  exact Nat.lt_irrefl _ (h.shorter (eq_false_of_ne_true hs))

theorem StringRead.of_length {s c : List CodeUnit} (h : c.length < s.length)
    (hs : s.all survives = false) : StringRead s c where
  length_le := Nat.le_of_lt h
  exact := fun hall => absurd (hs.symm.trans hall) (by simp)
  shorter := fun _ => h

/-- Where the reader takes the string to end: where it was closed, before, or after. -/
inductive Outcome (s tail c : List CodeUnit) : List CodeUnit → Prop where
  | closed (h : StringRead s c) : Outcome s tail c tail
  | early (b : List CodeUnit) : Outcome s tail c (escaped b ++ quote :: tail)
  | late (c' rest : List CodeUnit) (h : stringBody tail = some (c', rest)) : Outcome s tail c rest

theorem hex_of_escaped {b tail rest : List CodeUnit} {h : CodeUnit}
    (hhex : (hexValue h).isSome) (heq : escaped b ++ quote :: tail = h :: rest) :
    ∃ b', b = h :: b' ∧ rest = escaped b' ++ quote :: tail := by
  have hquote : h ≠ quote := by
    rintro rfl
    exact absurd hhex (by decide)
  have hback : h ≠ backslash := by
    rintro rfl
    exact absurd hhex (by decide)
  cases b with
  | nil =>
    rw [escaped_nil, List.nil_append] at heq
    exact absurd (List.cons.inj heq).1.symm hquote
  | cons c b =>
    by_cases hc : c = quote
    · subst hc
      rw [escaped_quote] at heq
      exact absurd (List.cons.inj heq).1.symm hback
    · rw [escaped_cons hc] at heq
      obtain ⟨rfl, hrest⟩ := List.cons.inj heq
      exact ⟨b, rfl, hrest.symm⟩

theorem not_all_backslash (b : List CodeUnit) : (backslash :: b).all survives = false := rfl

theorem exists_of_map_cons {u : CodeUnit} {cs c rest : List CodeUnit}
    (h : (stringBody cs).map (fun p => (u :: p.1, p.2)) = some (c, rest)) :
    ∃ c', c = u :: c' ∧ stringBody cs = some (c', rest) := by
  obtain ⟨⟨c', r⟩, hread, heq⟩ := Option.map_eq_some_iff.mp h
  obtain ⟨rfl, rfl⟩ := Prod.mk.inj heq
  exact ⟨c', rfl, hread⟩

theorem stringBody_refused {e : CodeUnit} (he : e ≠ 117) (h : simpleEscape e = none)
    (cs : List CodeUnit) : stringBody (backslash :: e :: cs) = none := by
  unfold stringBody
  rw [if_neg (by decide), if_pos rfl]
  dsimp only
  rw [if_neg he, h]
  rfl

theorem exists_of_hex {b tail c rest : List CodeUnit}
    (h : stringBody (backslash :: 117 :: (escaped b ++ quote :: tail)) = some (c, rest)) :
    ∃ h₁ h₂ h₃ h₄ u b' c', b = h₁ :: h₂ :: h₃ :: h₄ :: b' ∧ c = u :: c' ∧
      stringBody (escaped b' ++ quote :: tail) = some (c', rest) := by
  generalize htext : escaped b ++ quote :: tail = text at h
  match text with
  | h₁ :: h₂ :: h₃ :: h₄ :: text =>
    rw [stringBody_hex] at h
    obtain ⟨u, hu, h⟩ := Option.bind_eq_some_iff.mp h
    obtain ⟨c', rfl, hread⟩ := exists_of_map_cons h
    unfold hexUnit at hu
    obtain ⟨x₁, hx₁, hu⟩ := Option.bind_eq_some_iff.mp hu
    obtain ⟨x₂, hx₂, hu⟩ := Option.bind_eq_some_iff.mp hu
    obtain ⟨x₃, hx₃, hu⟩ := Option.bind_eq_some_iff.mp hu
    obtain ⟨x₄, hx₄, -⟩ := Option.bind_eq_some_iff.mp hu
    obtain ⟨b₁, rfl, h₁'⟩ := hex_of_escaped (Option.isSome_of_eq_some hx₁) htext
    obtain ⟨b₂, rfl, h₂'⟩ := hex_of_escaped (Option.isSome_of_eq_some hx₂) h₁'.symm
    obtain ⟨b₃, rfl, h₃'⟩ := hex_of_escaped (Option.isSome_of_eq_some hx₃) h₂'.symm
    obtain ⟨b₄, rfl, h₄'⟩ := hex_of_escaped (Option.isSome_of_eq_some hx₄) h₃'.symm
    exact ⟨h₁, h₂, h₃, h₄, u, b₄, c', rfl, rfl, h₄' ▸ hread⟩
  | [] => exact absurd h (by simp [stringBody, quote, backslash])
  | [_] => exact absurd h (by simp [stringBody, quote, backslash])
  | [_, _] => exact absurd h (by simp [stringBody, quote, backslash])
  | [_, _, _] => exact absurd h (by simp [stringBody, quote, backslash])

theorem Outcome.cons {s tail c rest : List CodeUnit} (h : Outcome s tail c rest) {u : CodeUnit}
    (hu : survives u = true) : Outcome (u :: s) tail (u :: c) rest := by
  cases h with
  | closed h => exact .closed (h.cons hu)
  | early b => exact .early b
  | late c' rest h => exact .late c' rest h

theorem Outcome.escape {s tail c rest : List CodeUnit} (h : Outcome s tail c rest) (u : CodeUnit)
    (before : List CodeUnit) (hlong : 1 < (backslash :: before).length) :
    Outcome (backslash :: (before ++ s)) tail (u :: c) rest := by
  cases h with
  | closed h =>
    refine .closed (.of_length ?_ (not_all_backslash _))
    have := h.length_le
    simp only [List.length_cons, List.length_append] at hlong ⊢
    omega
  | early b => exact .early b
  | late c' rest h => exact .late c' rest h

theorem stringBody_escaped {tail : List CodeUnit} (n : ℕ) :
    ∀ s : List CodeUnit, s.length ≤ n → ∀ c rest,
      stringBody (escaped s ++ quote :: tail) = some (c, rest) → Outcome s tail c rest := by
  induction n with
  | zero =>
    intro s hs c rest h
    obtain rfl := List.eq_nil_of_length_eq_zero (Nat.le_zero.mp hs)
    rw [escaped_nil, List.nil_append, JsonText.stringBody_quote] at h
    obtain ⟨rfl, rfl⟩ := Prod.mk.inj (Option.some.inj h)
    exact .closed ⟨Nat.le_refl _, fun _ => rfl, nofun⟩
  | succ n ih =>
    intro s hs c rest h
    match s with
    | [] => exact ih [] (Nat.zero_le n) c rest h
    | u :: b =>
      have hb : b.length ≤ n := Nat.le_of_succ_le_succ hs
      by_cases hquote : u = quote
      · subst hquote
        rw [escaped_quote, List.cons_append, List.cons_append,
          stringBody_escape (by decide) (show simpleEscape quote = some quote by decide)] at h
        obtain ⟨c', rfl, hread⟩ := exists_of_map_cons h
        exact (ih b hb c' rest hread).cons (by decide)
      · rw [escaped_cons hquote, List.cons_append] at h
        by_cases hback : u = backslash
        · subst hback
          -- the text holds a reverse solidus: the unit after it is taken as an escape
          match b with
          | [] =>
            rw [escaped_nil, List.nil_append,
              stringBody_escape (by decide) (show simpleEscape quote = some quote by decide)] at h
            obtain ⟨c', rfl, hread⟩ := exists_of_map_cons h
            exact .late c' rest hread
          | e :: b =>
            have hb' : b.length ≤ n := Nat.le_of_succ_le hb
            by_cases he : e = quote
            · subst he
              rw [escaped_quote, List.cons_append, List.cons_append, stringBody_escape (by decide)
                (show simpleEscape backslash = some backslash by decide),
                JsonText.stringBody_quote] at h
              obtain ⟨rfl, rfl⟩ := Prod.mk.inj (Option.some.inj h)
              exact .early b
            · rw [escaped_cons he, List.cons_append] at h
              by_cases hhex : e = 117
              · subst hhex
                obtain ⟨h₁, h₂, h₃, h₄, x, b', c', rfl, rfl, hread⟩ := exists_of_hex h
                refine (ih b' ?_ c' rest hread).escape x [117, h₁, h₂, h₃, h₄] (by simp)
                simp only [List.length_cons] at hb'
                omega
              · cases hsimple : simpleEscape e with
                | none =>
                  rw [stringBody_refused hhex hsimple] at h
                  cases h
                | some x =>
                  rw [stringBody_escape hhex hsimple] at h
                  obtain ⟨c', rfl, hread⟩ := exists_of_map_cons h
                  exact (ih b hb' c' rest hread).escape x [e] (by simp)
        · by_cases hcontrol : u < 32
          · conv at h => lhs; unfold stringBody
            rw [if_neg hquote, if_neg hback, if_pos hcontrol] at h
            cases h
          · have hplain : isPlain u = true := decide_eq_true ⟨hquote, hback, hcontrol⟩
            rw [JsonText.stringBody_plain hplain] at h
            obtain ⟨c', rfl, hread⟩ := exists_of_map_cons h
            exact (ih b hb c' rest hread).cons (decide_eq_true ⟨hback, hcontrol⟩)

/-! ## What follows a string -/

/-- What stands after a value in the record: the end, or the next member, whose name starts with a
unit that separates nothing. -/
inductive Follows : List CodeUnit → Prop where
  | last : Follows [closeBrace]
  | next (k : CodeUnit) (more : List CodeUnit) (hplain : isPlain k = true) (hws : isWs k = false)
      (hk : k ≠ comma ∧ k ≠ colon ∧ k ≠ closeBrace) : Follows (comma :: quote :: k :: more)

variable {number : List CodeUnit → Option ν}

def Stuck (number : List CodeUnit → Option ν) (rest : List CodeUnit) : Prop :=
  ∀ fuel key v p, memberTail number fuel key v rest = some p → skipWs p.2 ≠ []

theorem stuck_of_expect {rest : List CodeUnit} (hcomma : expect comma rest = none)
    (hbrace : expect closeBrace rest = none) : Stuck number rest := by
  intro fuel key v p h
  unfold memberTail at h
  rw [hcomma, hbrace] at h
  cases h

theorem Follows.late {tail : List CodeUnit} (h : Follows tail) {c' rest : List CodeUnit}
    (hread : stringBody tail = some (c', rest)) :
    expect comma rest = none ∧ expect closeBrace rest = none ∧ expect colon rest = none := by
  cases h with
  | last => exact absurd hread (by simp [stringBody, closeBrace, quote, backslash])
  | next k more hplain hws hk =>
    rw [JsonText.stringBody_plain (by decide), JsonText.stringBody_quote] at hread
    obtain ⟨-, rfl⟩ := Prod.mk.inj (Option.some.inj hread)
    exact ⟨JsonText.expect_of_ne hws hk.1 _, JsonText.expect_of_ne hws hk.2.2 _,
      JsonText.expect_of_ne hws hk.2.1 _⟩

theorem skipWs_escaped (b cs : List CodeUnit) :
    (skipWs (escaped b ++ quote :: cs) = quote :: cs) ∨
      ∃ d b', isWs d = false ∧ d ≠ quote ∧
        (skipWs (escaped b ++ quote :: cs) = d :: (escaped b' ++ quote :: cs) ∨
          d = backslash ∧ skipWs (escaped b ++ quote :: cs) =
            d :: quote :: (escaped b' ++ quote :: cs)) := by
  induction b with
  | nil => exact Or.inl (JsonText.skipWs_of_not_ws (by decide) _)
  | cons d b ih =>
    by_cases hquote : d = quote
    · subst hquote
      refine Or.inr ⟨backslash, b, by decide, by decide, Or.inr ⟨rfl, ?_⟩⟩
      rw [escaped_quote]
      exact JsonText.skipWs_of_not_ws (by decide) _
    · rw [escaped_cons hquote, List.cons_append]
      cases hws : isWs d with
      | true =>
        have hskip : skipWs (d :: (escaped b ++ quote :: cs)) = skipWs (escaped b ++ quote :: cs) := by
          unfold skipWs
          rw [List.dropWhile_cons_of_pos hws]
        rw [hskip]
        exact ih
      | false => exact Or.inr ⟨d, b, hws, hquote, Or.inl (JsonText.skipWs_of_not_ws hws _)⟩

theorem skipWs_escaped_ne_nil (b cs : List CodeUnit) : skipWs (escaped b ++ quote :: cs) ≠ [] := by
  rcases skipWs_escaped b cs with h | ⟨d, b', -, -, h | ⟨-, h⟩⟩
  · rw [h]
    exact List.cons_ne_nil _ _
  · rw [h]
    exact List.cons_ne_nil _ _
  · rw [h]
    exact List.cons_ne_nil _ _

theorem expect_quote_escaped {b cs rest : List CodeUnit}
    (h : expect quote (escaped b ++ quote :: cs) = some rest) : rest = cs := by
  unfold expect at h
  rcases skipWs_escaped b cs with hskip | ⟨d, b', -, hd, hskip | ⟨-, hskip⟩⟩
  · rw [hskip] at h
    exact (Option.some.inj ((if_pos rfl).symm.trans h)).symm
  · rw [hskip] at h
    exact absurd ((if_neg hd).symm.trans h) nofun
  · rw [hskip] at h
    exact absurd ((if_neg hd).symm.trans h) nofun

theorem expect_escaped {u : CodeUnit} (hu : u ≠ quote) (hu' : u ≠ backslash)
    {b cs rest : List CodeUnit} (h : expect u (escaped b ++ quote :: cs) = some rest) :
    ∃ b', rest = escaped b' ++ quote :: cs := by
  unfold expect at h
  rcases skipWs_escaped b cs with hskip | ⟨d, b', -, hd, hskip | ⟨rfl, hskip⟩⟩
  · rw [hskip] at h
    exact absurd ((if_neg (Ne.symm hu)).symm.trans h) nofun
  · rw [hskip] at h
    by_cases hdu : d = u
    · exact ⟨b', (Option.some.inj ((if_pos hdu).symm.trans h)).symm⟩
    · exact absurd ((if_neg hdu).symm.trans h) nofun
  · rw [hskip] at h
    exact absurd ((if_neg (Ne.symm hu')).symm.trans h) nofun

theorem members_early {tail : List CodeUnit} (htail : Follows tail) (fuel : ℕ) (b : List CodeUnit) :
    members number fuel (escaped b ++ quote :: tail) = none := by
  cases fuel with
  | zero => rfl
  | succ fuel =>
    unfold members
    cases hquote : expect quote (escaped b ++ quote :: tail) with
    | none => rfl
    | some rest =>
      obtain rfl := expect_quote_escaped hquote
      rw [Option.bind_some]
      cases hread : stringBody rest with
      | none => rfl
      | some key =>
        obtain ⟨c', r⟩ := key
        rw [Option.bind_some, (htail.late hread).2.2]
        rfl

theorem stuck_early {tail : List CodeUnit} (htail : Follows tail) (b : List CodeUnit) :
    Stuck number (escaped b ++ quote :: tail) := by
  intro fuel key v p h
  unfold memberTail at h
  cases hcomma : expect comma (escaped b ++ quote :: tail) with
  | some rest =>
    obtain ⟨b', rfl⟩ := expect_escaped (by decide) (by decide) hcomma
    rw [hcomma] at h
    dsimp only at h
    rw [members_early htail] at h
    cases h
  | none =>
    rw [hcomma] at h
    obtain ⟨rest, hbrace, rfl⟩ := Option.map_eq_some_iff.mp h
    obtain ⟨b', rfl⟩ := expect_escaped (by decide) (by decide) hbrace
    exact skipWs_escaped_ne_nil b' tail

/-! ## Members -/

/-- A member of the record: its name, the text of its value, and what the value is read as. -/
structure Field (ν : Type) where
  key : List CodeUnit
  text : List CodeUnit
  means : JsonValue ν → Prop

def Field.member (f : Field ν) : List CodeUnit := quote :: (f.key ++ quote :: colon :: f.text)

def membersText (f : Field ν) : List (Field ν) → List CodeUnit
  | [] => f.member ++ [closeBrace]
  | g :: rest => f.member ++ comma :: membersText g rest

structure WellNamed (f : Field ν) : Prop where
  plain : f.key.all isPlain = true
  first : ∃ k ks, f.key = k :: ks ∧ isWs k = false ∧ k ≠ comma ∧ k ≠ colon ∧ k ≠ closeBrace

/-- Whatever is read of the text of a value is what the value means, or the reader is stuck. -/
def Reads (number : List CodeUnit → Option ν) (text : List CodeUnit) (means : JsonValue ν → Prop) :
    Prop :=
  ∀ tail, Follows tail → ∀ fuel p, value number fuel (text ++ tail) = some p →
    (p.2 = tail ∧ means p.1) ∨ Stuck number p.2

def Complete (number : List CodeUnit → Option ν) (text : List CodeUnit) : Prop :=
  ∀ tail, Follows tail → ∀ fuel, ∃ v, value number (fuel + 1) (text ++ tail) = some (v, tail)

theorem follows_member {g : Field ν} (h : WellNamed g) (cs : List CodeUnit) :
    Follows (comma :: (g.member ++ cs)) := by
  obtain ⟨k, ks, hkey, hws, hk⟩ := h.first
  have hplain := h.plain
  unfold Field.member
  rw [hkey, List.all_cons, Bool.and_eq_true] at *
  exact .next k _ hplain.1 hws hk

theorem follows_membersText {g : Field ν} (h : WellNamed g) (rest : List (Field ν)) :
    Follows (comma :: membersText g rest) := by
  cases rest with
  | nil => exact follows_member h _
  | cons g' rest => exact follows_member h _

theorem membersText_head (f : Field ν) (rest : List (Field ν)) :
    ∃ cs, membersText f rest = quote :: cs := by
  cases rest with
  | nil => exact ⟨_, rfl⟩
  | cons g rest => exact ⟨_, rfl⟩

theorem expect_membersText (f : Field ν) (rest : List (Field ν)) :
    expect closeBrace (membersText f rest) = none := by
  obtain ⟨cs, hcs⟩ := membersText_head f rest
  rw [hcs]
  exact JsonText.expect_of_ne (by decide) (by decide) cs

theorem length_membersText (f : Field ν) (rest : List (Field ν)) :
    rest.length + 1 ≤ (membersText f rest).length := by
  induction rest generalizing f with
  | nil => simp [membersText]
  | cons g rest ih =>
    have := ih g
    simp only [membersText, List.length_append, List.length_cons]
    omega

theorem members_field {f : Field ν} (h : WellNamed f) (fuel : ℕ) (cs : List CodeUnit) :
    members number (fuel + 1) (f.member ++ cs) =
      (value number fuel (f.text ++ cs)).bind fun v => memberTail number fuel f.key v.1 v.2 := by
  rw [← JsonText.members_member h.plain]
  unfold Field.member
  simp

def Means (f : Field ν) (m : List CodeUnit × JsonValue ν) : Prop := m.1 = f.key ∧ f.means m.2

theorem members_read {f : Field ν} {rest : List (Field ν)}
    (hnamed : ∀ g ∈ f :: rest, WellNamed g) (hreads : ∀ g ∈ f :: rest, Reads number g.text g.means)
    (fuel : ℕ) {p : List (List CodeUnit × JsonValue ν) × List CodeUnit}
    (h : members number fuel (membersText f rest) = some p) (hend : skipWs p.2 = []) :
    List.Forall₂ Means (f :: rest) p.1 := by
  induction rest generalizing f fuel p with
  | nil =>
    cases fuel with
    | zero => cases h
    | succ fuel =>
      rw [membersText, members_field (hnamed f List.mem_cons_self)] at h
      obtain ⟨v, hv, htail⟩ := Option.bind_eq_some_iff.mp h
      rcases hreads f List.mem_cons_self _ .last fuel v hv with ⟨hrest, hmeans⟩ | hstuck
      · rw [hrest, JsonText.memberTail_closeBrace] at htail
        obtain rfl := Option.some.inj htail
        exact .cons ⟨rfl, hmeans⟩ .nil
      · exact absurd hend (hstuck fuel f.key v.1 p htail)
  | cons g rest ih =>
    cases fuel with
    | zero => cases h
    | succ fuel =>
      rw [membersText, members_field (hnamed f List.mem_cons_self)] at h
      obtain ⟨v, hv, htail⟩ := Option.bind_eq_some_iff.mp h
      have hfollows := follows_membersText
        (hnamed g (List.mem_cons_of_mem _ List.mem_cons_self)) rest
      rcases hreads f List.mem_cons_self _ hfollows fuel v hv with ⟨hrest, hmeans⟩ | hstuck
      · rw [hrest, JsonText.memberTail_comma] at htail
        obtain ⟨q, hq, rfl⟩ := Option.map_eq_some_iff.mp htail
        exact .cons ⟨rfl, hmeans⟩ (ih (fun g' hg' => hnamed g' (List.mem_cons_of_mem _ hg'))
          (fun g' hg' => hreads g' (List.mem_cons_of_mem _ hg')) fuel hq hend)
      · exact absurd hend (hstuck fuel f.key v.1 p htail)

theorem members_complete {f : Field ν} {rest : List (Field ν)}
    (hnamed : ∀ g ∈ f :: rest, WellNamed g) (hcomplete : ∀ g ∈ f :: rest, Complete number g.text)
    (fuel : ℕ) (hfuel : rest.length + 2 ≤ fuel) :
    ∃ ms, members number fuel (membersText f rest) = some (ms, []) := by
  induction rest generalizing f fuel with
  | nil =>
    match fuel with
    | fuel + 2 =>
      obtain ⟨v, hv⟩ := hcomplete f List.mem_cons_self _ .last fuel
      rw [membersText, members_field (hnamed f List.mem_cons_self), hv, Option.bind_some,
        JsonText.memberTail_closeBrace]
      exact ⟨_, rfl⟩
  | cons g rest ih =>
    match fuel with
    | fuel + 2 =>
      obtain ⟨v, hv⟩ := hcomplete f List.mem_cons_self _ (follows_membersText
        (hnamed g (List.mem_cons_of_mem _ List.mem_cons_self)) rest) fuel
      obtain ⟨ms, hms⟩ := ih (fun g' hg' => hnamed g' (List.mem_cons_of_mem _ hg'))
        (fun g' hg' => hcomplete g' (List.mem_cons_of_mem _ hg')) (fuel + 1)
        (by simp only [List.length_cons] at hfuel; omega)
      rw [membersText, members_field (hnamed f List.mem_cons_self), hv, Option.bind_some,
        JsonText.memberTail_comma, hms]
      exact ⟨_, rfl⟩

/-! ## Values -/

theorem reads_number (numbers : JsNumbers ν) (n : ν) :
    Complete numbers.read (numbers.print n) ∧
      Reads numbers.read (numbers.print n) (· = .number n) := by
  have hvalue : ∀ tail, Follows tail → ∀ fuel,
      value numbers.read (fuel + 1) (numbers.print n ++ tail) = some (.number n, tail) := by
    intro tail htail fuel
    refine JsonText.value_number fuel (numbers.print_ne n) (numbers.print_units n) ?_
      (numbers.read_print n)
    cases htail with
    | last =>
      intro c hc
      obtain rfl := Option.some.inj hc
      decide
    | next k more hplain hws hk =>
      intro c hc
      obtain rfl := Option.some.inj hc
      decide
  refine ⟨fun tail htail fuel => ⟨_, hvalue tail htail fuel⟩, fun tail htail fuel p hp => ?_⟩
  cases fuel with
  | zero => cases hp
  | succ fuel =>
    rw [hvalue tail htail fuel] at hp
    obtain rfl := Option.some.inj hp
    exact Or.inl ⟨rfl, rfl⟩

theorem reads_bool (number : List CodeUnit → Option ν) (b : Bool) :
    Complete number (ascii (if b then "true" else "false")) ∧
      Reads number (ascii (if b then "true" else "false")) (· = .bool b) := by
  have hvalue : ∀ tail fuel,
      value number (fuel + 1) (ascii (if b then "true" else "false") ++ tail) =
        some (.bool b, tail) := by
    intro tail fuel
    cases b with
    | true => exact JsonText.value_true fuel tail
    | false => exact JsonText.value_false fuel tail
  refine ⟨fun tail _ fuel => ⟨_, hvalue tail fuel⟩, fun tail _ fuel p hp => ?_⟩
  cases fuel with
  | zero => cases hp
  | succ fuel =>
    rw [hvalue tail fuel] at hp
    obtain rfl := Option.some.inj hp
    exact Or.inl ⟨rfl, rfl⟩

def MeansText (s : List CodeUnit) (v : JsonValue ν) : Prop := ∃ c, v = .text c ∧ StringRead s c

theorem reads_text (number : List CodeUnit → Option ν) (s : List CodeUnit) :
    Reads number (quote :: (escaped s ++ [quote])) (MeansText s) := by
  intro tail htail fuel p hp
  cases fuel with
  | zero => cases hp
  | succ fuel =>
    have htext : quote :: (escaped s ++ [quote]) ++ tail = quote :: (escaped s ++ quote :: tail) := by
      simp
    rw [htext, JsonText.value_quote] at hp
    obtain ⟨⟨c, rest⟩, hread, rfl⟩ := Option.map_eq_some_iff.mp hp
    cases stringBody_escaped s.length s (Nat.le_refl _) c rest hread with
    | closed h => exact Or.inl ⟨rfl, c, rfl, h⟩
    | early b => exact Or.inr (stuck_early htail b)
    | late c' rest h =>
      exact Or.inr (stuck_of_expect (htail.late h).1 (htail.late h).2.1)

theorem complete_text (number : List CodeUnit → Option ν) {s : List CodeUnit}
    (h : s.all survives = true) : Complete number (quote :: (escaped s ++ [quote])) := by
  intro tail htail fuel
  have hread : ∃ c, stringBody (escaped s ++ quote :: tail) = some (c, tail) := by
    induction s with
    | nil => exact ⟨[], JsonText.stringBody_quote tail⟩
    | cons u s ih =>
      rw [List.all_cons, Bool.and_eq_true] at h
      obtain ⟨c, hc⟩ := ih h.2
      by_cases hquote : u = quote
      · subst hquote
        rw [escaped_quote, List.cons_append, List.cons_append,
          stringBody_escape (by decide) (show simpleEscape quote = some quote by decide), hc]
        exact ⟨_, rfl⟩
      · have hu := of_decide_eq_true h.1
        rw [escaped_cons hquote, List.cons_append,
          JsonText.stringBody_plain (decide_eq_true ⟨hquote, hu.1, hu.2⟩), hc]
        exact ⟨_, rfl⟩
  obtain ⟨c, hc⟩ := hread
  have htext : quote :: (escaped s ++ [quote]) ++ tail = quote :: (escaped s ++ quote :: tail) := by
    simp
  rw [htext, JsonText.value_quote, hc]
  exact ⟨_, rfl⟩

/-! ## The record -/

def MeansValue (v : MetricValue ν) (j : JsonValue ν) : Prop :=
  match v with
  | .text s => MeansText s j
  | .bool b => j = .bool b
  | .number n => j = .number n

namespace MetricRecord

variable (numbers : JsNumbers ν) (r : MetricRecord ν)

def valueField : Field ν := ⟨ascii "v", valueJson numbers r.value, MeansValue r.value⟩

def numberField (key : String) (n : ν) : Field ν :=
  ⟨ascii key, numbers.print n, (· = .number n)⟩

def tokenField (t : List CodeUnit) : Field ν :=
  ⟨ascii "qt", valueJson numbers (.text t), MeansText t⟩

def fields : List (Field ν) :=
  [numberField numbers "q" r.quality, numberField numbers "ts" r.ts] ++
    (r.sourceTs.map (numberField numbers "src")).toList ++
    (r.verifiedTs.map (numberField numbers "ver")).toList ++
    (r.emissionTs.map (numberField numbers "emit")).toList ++
    (r.qualityToken.map (tokenField numbers)).toList

def Survives : Prop :=
  (∀ s, r.value = .text s → s.all survives = true) ∧
    ∀ t, r.qualityToken = some t → t.all survives = true

end MetricRecord

open MetricRecord (fields valueField numberField tokenField)

theorem membersText_eq (f : Field ν) (rest : List (Field ν)) :
    membersText f rest = f.member ++ (rest.flatMap fun g => comma :: g.member) ++ [closeBrace] := by
  induction rest generalizing f with
  | nil => simp [membersText]
  | cons g rest ih => simp [membersText, ih]

theorem optional_eq {α : Type} (name : String) (write : α → List CodeUnit) (key : String)
    (field : α → Field ν) (hname : ascii name = comma :: quote :: (ascii key ++ [quote, colon]))
    (hfield : ∀ a, (field a).key = ascii key ∧ (field a).text = write a) (o : Option α) :
    AlarmMetricPublisher.optional name write o =
      ((o.map field).toList.flatMap fun g => comma :: g.member) := by
  cases o with
  | none => rfl
  | some a =>
    simp [AlarmMetricPublisher.optional, hname, Field.member, hfield a]

theorem snapshotJson_eq (numbers : JsNumbers ν) (r : MetricRecord ν) :
    snapshotJson numbers r =
      openBrace :: membersText (valueField numbers r) (fields numbers r) := by
  have hv : ascii "\x7b\"v\":" = openBrace :: quote :: (ascii "v" ++ [quote, colon]) := by decide
  have hq : ascii ",\"q\":" = comma :: quote :: (ascii "q" ++ [quote, colon]) := by decide
  have hts : ascii ",\"ts\":" = comma :: quote :: (ascii "ts" ++ [quote, colon]) := by decide
  rw [membersText_eq]
  unfold snapshotJson
  rw [optional_eq _ numbers.print "src" (numberField numbers "src") (by decide)
      (fun _ => ⟨rfl, rfl⟩) r.sourceTs,
    optional_eq _ numbers.print "ver" (numberField numbers "ver") (by decide)
      (fun _ => ⟨rfl, rfl⟩) r.verifiedTs,
    optional_eq _ numbers.print "emit" (numberField numbers "emit") (by decide)
      (fun _ => ⟨rfl, rfl⟩) r.emissionTs,
    optional_eq _ (fun t => valueJson numbers (.text t)) "qt" (tokenField numbers) (by decide)
      (fun _ => ⟨rfl, rfl⟩) r.qualityToken,
    hv, hq, hts]
  simp [fields, valueField, numberField, Field.member]

theorem wellNamed_of {f : Field ν} (key : String) (hkey : f.key = ascii key)
    (hplain : (ascii key).all isPlain = true)
    (hfirst : (ascii key).head?.any
      (fun k => !isWs k && k ≠ comma && k ≠ colon && k ≠ closeBrace) = true) :
    WellNamed f := by
  rw [← hkey] at hplain hfirst
  refine ⟨hplain, ?_⟩
  cases hcases : f.key with
  | nil =>
    rw [hcases] at hfirst
    cases hfirst
  | cons k ks =>
    rw [hcases] at hfirst
    simp only [List.head?_cons, Option.any_some, Bool.and_eq_true, Bool.not_eq_true',
      decide_eq_true_eq] at hfirst
    exact ⟨k, ks, rfl, hfirst.1.1.1, hfirst.1.1.2, hfirst.1.2, hfirst.2⟩

theorem keys_nodup (numbers : JsNumbers ν) (r : MetricRecord ν) :
    ((valueField numbers r :: fields numbers r).map Field.key).Nodup := by
  have hoption {α : Type} (key : String) (field : α → Field ν) (h : ∀ a, (field a).key = ascii key)
      (o : Option α) : ((o.map field).toList.map Field.key).Sublist [ascii key] := by
    cases o with
    | none => exact List.nil_sublist _
    | some a => simp [h]
  have hsublist : ((valueField numbers r :: fields numbers r).map Field.key).Sublist
      [ascii "v", ascii "q", ascii "ts", ascii "src", ascii "ver", ascii "emit", ascii "qt"] := by
    unfold fields
    simp only [List.map_cons, List.map_append, List.map_nil]
    exact .cons_cons _ (((((List.Sublist.refl [ascii "q", ascii "ts"]).append
      (hoption "src" (numberField numbers "src") (fun _ => rfl) r.sourceTs)).append
      (hoption "ver" (numberField numbers "ver") (fun _ => rfl) r.verifiedTs)).append
      (hoption "emit" (numberField numbers "emit") (fun _ => rfl) r.emissionTs)).append
      (hoption "qt" (tokenField numbers) (fun _ => rfl) r.qualityToken))
  exact List.Nodup.sublist hsublist (by decide)

theorem fields_read (numbers : JsNumbers ν) (r : MetricRecord ν) :
    ∀ g ∈ valueField numbers r :: fields numbers r,
      WellNamed g ∧ Reads numbers.read g.text g.means := by
  have hvalue : Reads numbers.read (valueJson numbers r.value) (MeansValue r.value) := by
    cases r.value with
    | text s => exact reads_text numbers.read s
    | bool b => exact (reads_bool numbers.read b).2
    | number n => exact (reads_number numbers n).2
  intro g hg
  simp only [fields, List.mem_cons, List.mem_append, Option.mem_toList, Option.map_eq_some_iff,
    List.not_mem_nil, or_false] at hg
  rcases hg with rfl | ((((rfl | rfl) | ⟨n, -, rfl⟩) | ⟨n, -, rfl⟩) | ⟨n, -, rfl⟩) | ⟨t, -, rfl⟩
  · exact ⟨wellNamed_of "v" rfl (by decide) (by decide), hvalue⟩
  · exact ⟨wellNamed_of "q" rfl (by decide) (by decide), (reads_number numbers _).2⟩
  · exact ⟨wellNamed_of "ts" rfl (by decide) (by decide), (reads_number numbers _).2⟩
  · exact ⟨wellNamed_of "src" rfl (by decide) (by decide), (reads_number numbers n).2⟩
  · exact ⟨wellNamed_of "ver" rfl (by decide) (by decide), (reads_number numbers n).2⟩
  · exact ⟨wellNamed_of "emit" rfl (by decide) (by decide), (reads_number numbers n).2⟩
  · exact ⟨wellNamed_of "qt" rfl (by decide) (by decide), reads_text numbers.read t⟩

theorem mem_keys (numbers : JsNumbers ν) (r : MetricRecord ν) (k : List CodeUnit) :
    k ∈ (valueField numbers r :: fields numbers r).map Field.key ↔
      k = ascii "v" ∨ k = ascii "q" ∨ k = ascii "ts" ∨ (r.sourceTs.isSome ∧ k = ascii "src") ∨
        (r.verifiedTs.isSome ∧ k = ascii "ver") ∨ (r.emissionTs.isSome ∧ k = ascii "emit") ∨
        (r.qualityToken.isSome ∧ k = ascii "qt") := by
  have hoption {α : Type} (key : String) (field : α → Field ν) (h : ∀ a, (field a).key = ascii key)
      (o : Option α) :
      k ∈ (o.map field).toList.map Field.key ↔ o.isSome ∧ k = ascii key := by
    cases o with
    | none => simp
    | some a => simp [h]
  unfold fields
  simp only [List.map_cons, List.map_append, List.map_nil, List.mem_cons, List.mem_append,
    List.not_mem_nil, or_false]
  rw [hoption "src" (numberField numbers "src") (fun _ => rfl),
    hoption "ver" (numberField numbers "ver") (fun _ => rfl),
    hoption "emit" (numberField numbers "emit") (fun _ => rfl),
    hoption "qt" (tokenField numbers) (fun _ => rfl)]
  simp only [valueField, numberField, or_assoc]

/-! ## What the record is read as -/

section Lookup

variable {all : List (Field ν)} {ms : List (List CodeUnit × JsonValue ν)}

theorem keys_of_means (h : List.Forall₂ Means all ms) : ms.map Prod.fst = all.map Field.key := by
  induction h with
  | nil => rfl
  | cons hm _ ih => rw [List.map_cons, List.map_cons, ih, hm.1]

theorem get_of_mem (h : List.Forall₂ Means all ms) (hnodup : (all.map Field.key).Nodup)
    {f : Field ν} (hf : f ∈ all) : ∃ v, (JsonValue.object ms).get f.key = some v ∧ f.means v := by
  have hmem : ∃ v, (f.key, v) ∈ ms ∧ f.means v := by
    clear hnodup
    induction h with
    | nil => cases hf
    | @cons g m _ _ hm _ ih =>
      rcases List.mem_cons.mp hf with rfl | hf
      · exact ⟨m.2, List.mem_cons.mpr (.inl (Prod.ext hm.1.symm rfl)), hm.2⟩
      · obtain ⟨v, hv, hmeans⟩ := ih hf
        exact ⟨v, List.mem_cons_of_mem _ hv, hmeans⟩
  obtain ⟨v, hv, hmeans⟩ := hmem
  rw [← keys_of_means h] at hnodup
  refine ⟨v, ?_, hmeans⟩
  have hbeq : (List.instBEq : BEq (List CodeUnit)) = instBEqOfDecidableEq :=
    lawful_beq_subsingleton _ _
  rw [JsonValue.get_object, hbeq, Dict.lookup_reverse hnodup, Dict.lookup_eq_some_iff hnodup]
  exact hv

theorem get_of_not_mem (h : List.Forall₂ Means all ms) {k : List CodeUnit}
    (hk : k ∉ all.map Field.key) : (JsonValue.object ms).get k = none := by
  rw [← keys_of_means h] at hk
  rw [JsonValue.get_object, List.lookup_eq_none_iff]
  intro p hp
  rw [bne_iff_ne]
  rintro rfl
  exact hk (List.mem_map_of_mem (List.mem_reverse.mp hp))

theorem get_optional {α : Type} (h : List.Forall₂ Means all ms)
    (hnodup : (all.map Field.key).Nodup) {key : String} (field : α → Field ν)
    (hkey : ∀ a, (field a).key = ascii key) {o : Option α} (hmem : ∀ a ∈ o, field a ∈ all)
    (habsent : o = none → ascii key ∉ all.map Field.key) :
    (o = none ∧ (JsonValue.object ms).get (ascii key) = none) ∨
      ∃ a v, o = some a ∧ (JsonValue.object ms).get (ascii key) = some v ∧ (field a).means v := by
  cases o with
  | none => exact .inl ⟨rfl, get_of_not_mem h (habsent rfl)⟩
  | some a =>
    obtain ⟨v, hv, hmeans⟩ := get_of_mem h hnodup (hmem a rfl)
    rw [hkey] at hv
    exact .inr ⟨a, v, rfl, hv, hmeans⟩

end Lookup

inductive MeansToken : Option (List CodeUnit) → Option (List CodeUnit) → Prop where
  | absent : MeansToken none none
  | present {t c : List CodeUnit} (h : StringRead t c) : MeansToken (some t) (some c)

theorem parseSnapshotMetric_of_means (numbers : JsNumbers ν) (r : MetricRecord ν)
    {ms : List (List CodeUnit × JsonValue ν)}
    (h : List.Forall₂ Means (valueField numbers r :: fields numbers r) ms) :
    ∃ v token, LiveMetric.parseSnapshotMetric numbers (.object ms) =
        some ⟨v, r.quality, some r.ts, r.sourceTs, r.verifiedTs, r.emissionTs, token⟩ ∧
      MeansValue r.value v ∧ MeansToken r.qualityToken token := by
  have hnodup := keys_nodup numbers r
  obtain ⟨v, hv, hmeans⟩ := get_of_mem h hnodup List.mem_cons_self
  have hnumber (key : String) (n : ν)
      (hmem : numberField numbers key n ∈ valueField numbers r :: fields numbers r) :
      (JsonValue.object ms).get (ascii key) = some (.number n) := by
    obtain ⟨w, hw, rfl⟩ := get_of_mem h hnodup hmem
    exact hw
  have hoptional (key : String) (o : Option ν)
      (hmem : ∀ n ∈ o, numberField numbers key n ∈ valueField numbers r :: fields numbers r)
      (habsent : o = none → ascii key ∉
        (valueField numbers r :: fields numbers r).map Field.key) :
      LiveMetric.num numbers ((JsonValue.object ms).get (ascii key)) = o := by
    rcases get_optional h hnodup (numberField numbers key) (fun _ => rfl) hmem habsent with
      ⟨rfl, hget⟩ | ⟨n, w, rfl, hget, rfl⟩
    · rw [hget]
      rfl
    · rw [hget]
      exact numbers.toNumber_number n
  -- the names of the optional members are no other member's
  have hnames : [ascii "v", ascii "q", ascii "ts", ascii "src", ascii "ver", ascii "emit",
    ascii "qt"].Nodup := by decide
  simp only [List.nodup_cons, List.mem_cons, List.not_mem_nil, or_false, not_or] at hnames
  have hq := hnumber "q" r.quality (by simp [fields])
  have hts := hnumber "ts" r.ts (by simp [fields])
  have hsrc := hoptional "src" r.sourceTs (fun n hn => by simp [fields, Option.mem_def.mp hn])
    (fun hnone => by rw [mem_keys, hnone]; grind)
  have hver := hoptional "ver" r.verifiedTs (fun n hn => by simp [fields, Option.mem_def.mp hn])
    (fun hnone => by rw [mem_keys, hnone]; grind)
  have hemit := hoptional "emit" r.emissionTs (fun n hn => by simp [fields, Option.mem_def.mp hn])
    (fun hnone => by rw [mem_keys, hnone]; grind)
  have htoken : MeansToken r.qualityToken
      (LiveMetric.string ((JsonValue.object ms).get (ascii "qt"))) := by
    have hget := get_optional (o := r.qualityToken) h hnodup (tokenField numbers) (fun _ => rfl)
      (fun t ht => by simp [fields, Option.mem_def.mp ht])
      (fun hnone => by rw [mem_keys, hnone]; grind)
    rcases hget with ⟨hnone, hget⟩ | ⟨t, w, hsome, hget, c, rfl, hread⟩
    · rw [hnone, hget]
      exact .absent
    · rw [hsome, hget]
      exact .present hread
  have hv' : (JsonValue.object ms).get (ascii "v") = some v := hv
  refine ⟨v, _, ?_, hmeans, htoken⟩
  unfold LiveMetric.parseSnapshotMetric LiveMetric.ofFields
  rw [hv', hts, hq, hsrc, hver, hemit]
  dsimp only
  rw [numbers.toNumber_number]
  unfold LiveMetric.num
  dsimp only
  rw [numbers.toNumber_number]
  rfl

namespace MetricRecord

def metric (r : MetricRecord ν) : LiveMetric ν :=
  ⟨r.value.shown, r.quality, some r.ts, r.sourceTs, r.verifiedTs, r.emissionTs, r.qualityToken⟩

def restored (numbers : JsNumbers ν) (r : MetricRecord ν) : Option (LiveMetric ν) :=
  (JsonText.parse numbers.read (snapshotJson numbers r)).bind
    (LiveMetric.parseSnapshotMetric numbers)

def live (numbers : JsNumbers ν) (r : MetricRecord ν) : LiveMetric ν :=
  LiveMetric.metricFromSparkplug numbers r.published r.ts

theorem live_eq (numbers : JsNumbers ν) (r : MetricRecord ν) :
    r.live numbers = { r.metric with ts := some (r.sourceTs.getD r.ts) } := by
  obtain ⟨value, quality, ts, sourceTs, verifiedTs, emissionTs, qualityToken⟩ := r
  cases sourceTs <;> cases verifiedTs <;> cases emissionTs <;> cases qualityToken <;>
    simp [live, metric, published, LiveMetric.metricFromSparkplug, LiveMetric.num,
      LiveMetric.string, numbers.toNumber_number, List.lookup]

theorem restored_cases {numbers : JsNumbers ν} {r : MetricRecord ν} {m : LiveMetric ν}
    (h : r.restored numbers = some m) :
    ∃ v token,
      m = ⟨v, r.quality, some r.ts, r.sourceTs, r.verifiedTs, r.emissionTs, token⟩ ∧
        MeansValue r.value v ∧ MeansToken r.qualityToken token := by
  unfold restored at h
  obtain ⟨j, hparse, hmetric⟩ := Option.bind_eq_some_iff.mp h
  unfold JsonText.parse at hparse
  rw [snapshotJson_eq] at hparse
  obtain ⟨p, hvalue, hend⟩ := Option.bind_eq_some_iff.mp hparse
  rw [JsonText.value_openBrace _ (expect_membersText _ _)] at hvalue
  obtain ⟨q, hmembers, rfl⟩ := Option.map_eq_some_iff.mp hvalue
  split at hend
  case isFalse => cases hend
  case isTrue hnil =>
    obtain rfl := Option.some.inj hend
    have hfields := fields_read numbers r
    have hmeans := members_read (fun g hg => (hfields g hg).1) (fun g hg => (hfields g hg).2) _
      hmembers hnil
    obtain ⟨v, token, hparsed, hv, ht⟩ := parseSnapshotMetric_of_means numbers r hmeans
    exact ⟨v, token, Option.some.inj (hmetric.symm.trans hparsed), hv, ht⟩

theorem restored_of_survives (numbers : JsNumbers ν) {r : MetricRecord ν} (h : r.Survives) :
    ∃ m, r.restored numbers = some m := by
  have hvalue : Complete numbers.read (valueJson numbers r.value) := by
    cases hcases : r.value with
    | text s => exact complete_text numbers.read (h.1 s hcases)
    | bool b => exact (reads_bool numbers.read b).1
    | number n => exact (reads_number numbers n).1
  have hcomplete : ∀ g ∈ valueField numbers r :: fields numbers r,
      Complete numbers.read g.text := by
    intro g hg
    simp only [fields, List.mem_cons, List.mem_append, Option.mem_toList, Option.map_eq_some_iff,
      List.not_mem_nil, or_false] at hg
    rcases hg with rfl | ((((rfl | rfl) | ⟨n, -, rfl⟩) | ⟨n, -, rfl⟩) | ⟨n, -, rfl⟩) | ⟨t, ht, rfl⟩
    · exact hvalue
    · exact (reads_number numbers _).1
    · exact (reads_number numbers _).1
    · exact (reads_number numbers n).1
    · exact (reads_number numbers n).1
    · exact (reads_number numbers n).1
    · exact complete_text numbers.read (h.2 t ht)
  have hnamed := fun g hg => (fields_read numbers r g hg).1
  have hfuel : (fields numbers r).length + 2 ≤ (snapshotJson numbers r).length := by
    rw [snapshotJson_eq, List.length_cons]
    exact Nat.succ_le_succ (length_membersText _ _)
  obtain ⟨ms, hms⟩ := members_complete hnamed hcomplete _ hfuel
  have hmeans := members_read hnamed (fun g hg => (fields_read numbers r g hg).2) _ hms rfl
  obtain ⟨v, token, hparsed, -, -⟩ := parseSnapshotMetric_of_means numbers r hmeans
  refine ⟨⟨v, r.quality, some r.ts, r.sourceTs, r.verifiedTs, r.emissionTs, token⟩, ?_⟩
  unfold restored JsonText.parse
  rw [snapshotJson_eq] at hms ⊢
  rw [JsonText.value_openBrace _ (expect_membersText _ _), hms]
  exact hparsed

theorem restored_metric_iff (numbers : JsNumbers ν) (r : MetricRecord ν) :
    r.restored numbers = some r.metric ↔ r.Survives := by
  constructor
  · intro h
    obtain ⟨v, token, hmetric, hv, ht⟩ := restored_cases h
    have hvalue : r.value.shown = v := congrArg LiveMetric.value hmetric
    have htoken : r.qualityToken = token := congrArg LiveMetric.qualityToken hmetric
    refine ⟨fun s hs => ?_, fun t htext => ?_⟩
    · rw [hs] at hv hvalue
      obtain ⟨c, hc, hread⟩ := hv
      rw [← hvalue] at hc
      obtain rfl := JsonValue.text.inj hc
      exact hread.all_survive
    · rw [← htoken, htext] at ht
      cases ht with
      | present hread => exact hread.all_survive
  · intro h
    obtain ⟨m, hm⟩ := restored_of_survives numbers h
    obtain ⟨v, token, rfl, hv, ht⟩ := restored_cases hm
    have hvalue : v = r.value.shown := by
      cases hcases : r.value with
      | text s =>
        rw [hcases] at hv
        obtain ⟨c, rfl, hread⟩ := hv
        rw [hread.exact (h.1 s hcases)]
        rfl
      | bool b =>
        rw [hcases] at hv
        exact hv
      | number n =>
        rw [hcases] at hv
        exact hv
    have htoken : token = r.qualityToken := by
      have hsurvives := h.2
      generalize r.qualityToken = written at ht hsurvives ⊢
      cases ht with
      | absent => rfl
      | @present t c hread => rw [hread.exact (hsurvives t rfl)]
    rw [hm, hvalue, htoken]
    rfl

/-- The snapshot path restores the metric and shows what the live path shows exactly when the texts
survive and the record has no second source time. -/
theorem same_metric_iff (numbers : JsNumbers ν) (r : MetricRecord ν) :
    (r.restored numbers = some r.metric ∧ r.restored numbers = some (r.live numbers)) ↔
      r.Survives ∧ (r.sourceTs = none ∨ r.sourceTs = some r.ts) := by
  rw [← restored_metric_iff numbers, and_congr_right_iff]
  intro h
  rw [h, live_eq]
  cases hsource : r.sourceTs with
  | none => simp [metric, hsource]
  | some t =>
    constructor
    · intro heq
      have hts := congrArg LiveMetric.ts (Option.some.inj heq)
      exact .inr hts.symm
    · rintro (hnone | hsome)
      · cases hnone
      · rw [Option.some.inj hsome]
        rfl

def pathText : MetricRecord ℕ where
  value := .text (ascii "C:\new")
  quality := 192
  ts := 1000
  sourceTs := some 1000
  verifiedTs := some 2000
  emissionTs := some 3000
  qualityToken := some (ascii "GOOD")

/-- A text with a reverse solidus is not restored. -/
theorem path_not_restored : pathText.restored .naturals ≠ some pathText.metric := by
  rw [Ne, restored_metric_iff]
  intro h
  have hall := h.1 _ rfl
  revert hall
  decide

end MetricRecord

end OpenBridge.LivePlane
