import OpenBridge.Ingestion.LoopSourceConflicts

/-!
# Ingestion: when two topic filters overlap

What `FiltersOverlap` decides for the filters that `IsValidTopicFilter` accepts: whether the levels
of some topic match both.  One pair of filters has the text without a character as its only common
topic, and that is no topic name.
-/

namespace OpenBridge.Ingestion

open LoopSourceConflicts

/-- `Split('/')`. -/
def topicLevels (text : String) : List String := (text.toList.splitOn '/').map String.ofList

namespace DataSourceValidation

/-- A level that is not `#`: `+` alone or without a wildcard. -/
def validLevel (level : String) : Bool :=
  ¬ '#' ∈ level.toList ∧ ('+' ∈ level.toList → level = "+")

/-- The loop of `IsValidTopicFilter`: `#` is the last level. -/
def validLevels : List String → Bool
  | [] => true
  | level :: rest => (if level = "#" then rest = [] else validLevel level) && validLevels rest

def isValidTopicFilter (filter : String) : Bool := !blank filter && validLevels (topicLevels filter)

end DataSourceValidation

open DataSourceValidation

inductive LevelsMatch : List String → List String → Prop
  | nil : LevelsMatch [] []
  | level (l : String) {filter topic : List String} (h : LevelsMatch filter topic) :
      LevelsMatch (l :: filter) (l :: topic)
  | plus (l : String) {filter topic : List String} (h : LevelsMatch filter topic) :
      LevelsMatch ("+" :: filter) (l :: topic)
  | hash (topic : List String) : LevelsMatch ["#"] topic

def FilterMatches (filter topic : String) : Prop :=
  LevelsMatch (topicLevels filter) (topicLevels topic)

def PlainLevel (l : String) : Prop := '+' ∉ l.toList ∧ '#' ∉ l.toList

def IsTopic (topic : String) : Prop := ∀ l ∈ topicLevels topic, PlainLevel l

def SharesTopic (a b : String) : Prop :=
  ∃ topic, IsTopic topic ∧ FilterMatches a topic ∧ FilterMatches b topic

def SharesTopicName (a b : String) : Prop :=
  ∃ topic, topic ≠ "" ∧ IsTopic topic ∧ FilterMatches a topic ∧ FilterMatches b topic

/-- One filter is `+` and the other `/#`. -/
def MeetsInEmpty (a b : String) : Prop := a = "+" ∧ b = "/#" ∨ a = "/#" ∧ b = "+"

/-! ## Texts and levels -/

theorem not_mem_of_mem_splitOn {sep : Char} {cs l : List Char} (h : l ∈ cs.splitOn sep) :
    sep ∉ l := by
  induction cs generalizing l with
  | nil =>
    rw [List.splitOn_nil, List.mem_singleton] at h
    rw [h]
    exact List.not_mem_nil
  | cons c rest ih =>
    rw [List.splitOn_cons_eq_if_modifyHead] at h
    split at h
    · rcases List.mem_cons.mp h with rfl | h
      · exact List.not_mem_nil
      · exact ih h
    · rename_i hc
      cases hrest : rest.splitOn sep with
      | nil => exact absurd hrest (List.splitOn_ne_nil sep rest)
      | cons first others =>
        rw [hrest] at h ih
        rcases List.mem_cons.mp h with rfl | h
        · rw [List.mem_cons, not_or]
          exact ⟨fun heq => hc (by simp [heq]), ih List.mem_cons_self⟩
        · exact ih (List.mem_cons_of_mem _ h)

theorem topicLevels_ne_nil (text : String) : topicLevels text ≠ [] := by
  simp [topicLevels]

theorem slash_notMem {text l : String} (h : l ∈ topicLevels text) : '/' ∉ l.toList := by
  obtain ⟨cs, hcs, rfl⟩ := List.mem_map.mp h
  rw [String.toList_ofList]
  exact not_mem_of_mem_splitOn hcs

theorem topicLevels_injective {s t : String} (h : topicLevels s = topicLevels t) : s = t := by
  have hlevels := List.map_injective_iff.mpr (fun _ _ h => String.ofList_injective h) h
  have hsplit : ['/'].intercalate (s.toList.splitOn '/') = s.toList := List.intercalate_splitOn _
  rw [← String.toList_inj, ← hsplit, hlevels, List.intercalate_splitOn]

theorem exists_topicLevels {ls : List String} (hne : ls ≠ []) (h : ∀ l ∈ ls, '/' ∉ l.toList) :
    ∃ text, topicLevels text = ls := by
  refine ⟨String.ofList (['/'].intercalate (ls.map String.toList)), ?_⟩
  unfold topicLevels
  rw [String.toList_ofList, List.splitOn_intercalate, List.map_map]
  · simp
  · intro cs hcs
    obtain ⟨l, hl, rfl⟩ := List.mem_map.mp hcs
    exact h l hl
  · simpa using hne

/-! ## Level by level -/

theorem levelsOverlap_cons {x y : String} {xs ys : List String} :
    levelsOverlap (x :: xs) (y :: ys) = true ↔
      x = "#" ∨ y = "#" ∨ (x = "+" ∨ y = "+" ∨ x = y) ∧ levelsOverlap xs ys = true := by
  rw [levelsOverlap]
  split
  · rename_i hhash
    exact iff_of_true rfl (or_assoc.mp (.inl hhash))
  · rename_i hhash
    rw [not_or] at hhash
    rw [or_iff_right hhash.1, or_iff_right hhash.2]
    split
    · rename_i hapart
      refine iff_of_false Bool.false_ne_true fun h => ?_
      rcases h.1 with heq | heq | heq
      · exact hapart.1 heq
      · exact hapart.2.1 heq
      · exact hapart.2.2 heq
    · rename_i hmeet
      rw [iff_and_self]
      intro _
      by_contra hapart
      rw [not_or, not_or] at hapart
      exact hmeet hapart

theorem levelsOverlap_of_match {xs ys topic : List String} (hx : LevelsMatch xs topic)
    (hy : LevelsMatch ys topic) : levelsOverlap xs ys = true := by
  induction hx generalizing ys with
  | nil =>
    cases hy with
    | nil => rfl
    | hash => rfl
  | level l _ ih =>
    cases hy with
    | level _ hy => exact levelsOverlap_cons.mpr (.inr (.inr ⟨.inr (.inr rfl), ih hy⟩))
    | plus _ hy => exact levelsOverlap_cons.mpr (.inr (.inr ⟨.inr (.inl rfl), ih hy⟩))
    | hash => exact levelsOverlap_cons.mpr (.inr (.inl rfl))
  | plus l _ ih =>
    cases hy with
    | level _ hy => exact levelsOverlap_cons.mpr (.inr (.inr ⟨.inl rfl, ih hy⟩))
    | plus _ hy => exact levelsOverlap_cons.mpr (.inr (.inr ⟨.inl rfl, ih hy⟩))
    | hash => exact levelsOverlap_cons.mpr (.inr (.inl rfl))
  | hash =>
    cases ys with
    | nil => rfl
    | cons y ys => exact levelsOverlap_cons.mpr (.inl rfl)

def NameLevel (l : String) : Prop := '/' ∉ l.toList ∧ PlainLevel l

structure ValidLevels (xs : List String) : Prop where
  valid : validLevels xs = true
  noSlash : ∀ l ∈ xs, '/' ∉ l.toList

namespace ValidLevels

theorem tail {x : String} {xs : List String} (h : ValidLevels (x :: xs)) : ValidLevels xs := by
  have hvalid := h.valid
  rw [validLevels, Bool.and_eq_true] at hvalid
  exact ⟨hvalid.2, fun l hl => h.noSlash l (List.mem_cons_of_mem _ hl)⟩

theorem hash_last {xs : List String} (h : ValidLevels ("#" :: xs)) : xs = [] := by
  have hvalid := h.valid
  rw [validLevels, Bool.and_eq_true, if_pos rfl] at hvalid
  exact of_decide_eq_true hvalid.1

theorem nameLevel {x : String} {xs : List String} (h : ValidLevels (x :: xs)) (hplus : x ≠ "+")
    (hhash : x ≠ "#") : NameLevel x := by
  have hvalid := h.valid
  rw [validLevels, Bool.and_eq_true, if_neg hhash] at hvalid
  have hlevel := of_decide_eq_true hvalid.1
  exact ⟨h.noSlash x List.mem_cons_self, fun hmem => hplus (hlevel.2 hmem), hlevel.1⟩

end ValidLevels

def sampleTopic (xs : List String) : List String :=
  xs.map fun x => if x = "+" ∨ x = "#" then "x" else x

theorem nameLevel_x : NameLevel "x" := by
  unfold NameLevel PlainLevel
  decide

theorem match_sampleTopic {xs : List String} (h : ValidLevels xs) :
    LevelsMatch xs (sampleTopic xs) ∧ ∀ l ∈ sampleTopic xs, NameLevel l := by
  induction xs with
  | nil => exact ⟨.nil, fun l hl => by cases hl⟩
  | cons x xs ih =>
    obtain ⟨hmatch, hnames⟩ := ih h.tail
    unfold sampleTopic at hmatch hnames ⊢
    rw [List.map_cons, List.forall_mem_cons]
    split
    · rename_i hwild
      refine ⟨?_, nameLevel_x, hnames⟩
      rcases hwild with rfl | rfl
      · exact .plus "x" hmatch
      · rw [h.hash_last]
        exact .hash _
    · rename_i hname
      rw [not_or] at hname
      exact ⟨.level x hmatch, h.nameLevel hname.1 hname.2, hnames⟩

theorem exists_match_of_levelsOverlap {xs ys : List String} (hx : ValidLevels xs)
    (hy : ValidLevels ys) (h : levelsOverlap xs ys = true) :
    ∃ topic, LevelsMatch xs topic ∧ LevelsMatch ys topic ∧ (∀ l ∈ topic, NameLevel l) ∧
      (xs ≠ [] → ys ≠ [] → topic ≠ []) := by
  induction xs generalizing ys with
  | nil =>
    cases ys with
    | nil => exact ⟨[], .nil, .nil, fun l hl => (by cases hl), fun hne => absurd rfl hne⟩
    | cons y ys =>
      obtain rfl : y = "#" := of_decide_eq_true h
      rw [hy.hash_last]
      exact ⟨[], .nil, .hash _, fun l hl => (by cases hl), fun hne => absurd rfl hne⟩
  | cons x xs ih =>
    cases ys with
    | nil =>
      obtain rfl : x = "#" := of_decide_eq_true h
      rw [hx.hash_last]
      exact ⟨[], .hash _, .nil, fun l hl => (by cases hl), fun _ hne => absurd rfl hne⟩
    | cons y ys =>
      by_cases hxh : x = "#"
      · obtain ⟨hmatch, hnames⟩ := match_sampleTopic hy
        subst hxh
        rw [hx.hash_last]
        exact ⟨_, .hash _, hmatch, hnames, fun _ _ => List.cons_ne_nil _ _⟩
      by_cases hyh : y = "#"
      · obtain ⟨hmatch, hnames⟩ := match_sampleTopic hx
        subst hyh
        rw [hy.hash_last]
        exact ⟨_, hmatch, .hash _, hnames, fun _ _ => List.cons_ne_nil _ _⟩
      obtain ⟨hmeet, hrest⟩ := ((levelsOverlap_cons.mp h).resolve_left hxh).resolve_left hyh
      obtain ⟨topic, hxs, hys, hnames, -⟩ := ih hx.tail hy.tail hrest
      -- the level of the topic is the one that is no wildcard
      have hboth : ∀ l, LevelsMatch (x :: xs) (l :: topic) → LevelsMatch (y :: ys) (l :: topic) →
          NameLevel l → ∃ topic, LevelsMatch (x :: xs) topic ∧ LevelsMatch (y :: ys) topic ∧
            (∀ l ∈ topic, NameLevel l) ∧ (x :: xs ≠ [] → y :: ys ≠ [] → topic ≠ []) :=
        fun l hxl hyl hl => ⟨l :: topic, hxl, hyl, List.forall_mem_cons.mpr ⟨hl, hnames⟩,
          fun _ _ => List.cons_ne_nil _ _⟩
      by_cases hxp : x = "+"
      · subst hxp
        by_cases hyp : y = "+"
        · subst hyp
          exact hboth "x" (.plus _ hxs) (.plus _ hys) nameLevel_x
        · exact hboth y (.plus _ hxs) (.level _ hys) (hy.nameLevel hyp hyh)
      · rcases hmeet with heq | rfl | rfl
        · exact absurd heq hxp
        · exact hboth x (.level _ hxs) (.plus _ hys) (hx.nameLevel hxp hxh)
        · exact hboth x (.level _ hxs) (.level _ hys) (hx.nameLevel hxp hxh)

/-! ## Filters -/

theorem validLevels_topicLevels {filter : String} (h : isValidTopicFilter filter = true) :
    ValidLevels (topicLevels filter) := by
  rw [isValidTopicFilter, Bool.and_eq_true] at h
  exact ⟨h.2, fun l hl => slash_notMem hl⟩

theorem sharesTopic_of_levels {a b : String} {topic : List String}
    (ha : LevelsMatch (topicLevels a) topic) (hb : LevelsMatch (topicLevels b) topic)
    (hnames : ∀ l ∈ topic, NameLevel l) (hne : topic ≠ []) :
    ∃ text, topicLevels text = topic ∧ IsTopic text ∧ FilterMatches a text ∧ FilterMatches b text := by
  obtain ⟨text, rfl⟩ := exists_topicLevels hne fun l hl => (hnames l hl).1
  exact ⟨text, rfl, fun l hl => (hnames l hl).2, ha, hb⟩

theorem match_empty {xs : List String} (h : LevelsMatch xs [""]) (hne : xs ≠ [""]) :
    (LevelsMatch xs ["x"] ∨ xs = ["", "#"]) ∧ (LevelsMatch xs ["", "x"] ∨ xs = ["+"]) := by
  cases h with
  | level _ h =>
    cases h with
    | nil => exact absurd rfl hne
    | hash => exact ⟨.inr rfl, .inl (.level "" (.hash ["x"]))⟩
  | plus _ h =>
    cases h with
    | nil => exact ⟨.inl (.plus "x" .nil), .inr rfl⟩
    | hash => exact ⟨.inl (.plus "x" (.hash [])), .inl (.plus "" (.hash ["x"]))⟩
  | hash => exact ⟨.inl (.hash ["x"]), .inl (.hash ["", "x"])⟩

theorem topicLevels_eq_iff {s : String} {ls : List String} (text : String)
    (h : topicLevels text = ls) : topicLevels s = ls ↔ s = text :=
  ⟨fun hs => topicLevels_injective (hs.trans h.symm), fun hs => hs ▸ h⟩

theorem topicLevels_empty : topicLevels "" = [""] := by decide

theorem topicLevels_plus : topicLevels "+" = ["+"] := by decide

theorem topicLevels_slashHash : topicLevels "/#" = ["", "#"] := by decide

theorem levelsMatch_cons {f : String} {fs topic : List String} (h : LevelsMatch (f :: fs) topic) :
    f = "#" ∧ fs = [] ∨
      ∃ l rest, topic = l :: rest ∧ (f = "+" ∨ f = l) ∧ LevelsMatch fs rest := by
  cases h with
  | level _ h => exact .inr ⟨_, _, rfl, .inr rfl, h⟩
  | plus l h => exact .inr ⟨l, _, rfl, .inl rfl, h⟩
  | hash => exact .inl ⟨rfl, rfl⟩

theorem eq_empty_of_matches {topic : String} (hplus : FilterMatches "+" topic)
    (hhash : FilterMatches "/#" topic) : topic = "" := by
  unfold FilterMatches at hplus hhash
  rw [topicLevels_plus] at hplus
  rw [topicLevels_slashHash] at hhash
  rw [← topicLevels_eq_iff "" topicLevels_empty]
  rcases levelsMatch_cons hplus with ⟨heq, -⟩ | ⟨l, rest, hlevels, -, hrest⟩
  · exact absurd heq (by decide)
  rcases levelsMatch_cons hhash with ⟨heq, -⟩ | ⟨l', rest', hlevels', hfirst, -⟩
  · exact absurd heq (by decide)
  obtain rfl : l = "" := by
    rw [hlevels] at hlevels'
    rcases hfirst with heq | heq
    · exact absurd heq (by decide)
    · exact (List.cons.inj hlevels').1.trans heq.symm
  cases hrest with
  | nil => exact hlevels

theorem MeetsInEmpty.not_sharesTopicName {a b : String} (h : MeetsInEmpty a b) :
    ¬ SharesTopicName a b := by
  rintro ⟨topic, hne, -, ha, hb⟩
  rcases h with ⟨rfl, rfl⟩ | ⟨rfl, rfl⟩
  · exact hne (eq_empty_of_matches ha hb)
  · exact hne (eq_empty_of_matches hb ha)

theorem sharesTopicName_of_sharesTopic {a b : String} (ha : isValidTopicFilter a = true)
    (hb : isValidTopicFilter b = true) (h : SharesTopic a b) (hmeets : ¬ MeetsInEmpty a b) :
    SharesTopicName a b := by
  obtain ⟨topic, hplain, hxs, hys⟩ := h
  by_cases hne : topic ≠ ""
  · exact ⟨topic, hne, hplain, hxs, hys⟩
  -- another topic in the place of the empty one
  rw [not_not.mp hne, FilterMatches, topicLevels_empty] at hxs hys
  have hnotEmpty : ∀ {s}, isValidTopicFilter s = true → topicLevels s ≠ [""] := fun hs heq => by
    rw [(topicLevels_eq_iff "" topicLevels_empty).mp heq] at hs
    exact absurd hs (by decide)
  have hname : ∀ levels, LevelsMatch (topicLevels a) levels → LevelsMatch (topicLevels b) levels →
      levels ≠ [""] → levels ≠ [] → (∀ l ∈ levels, NameLevel l) → SharesTopicName a b :=
    fun levels hal hbl hlevels hnil hnames => by
      obtain ⟨text, rfl, htopic⟩ := sharesTopic_of_levels hal hbl hnames hnil
      exact ⟨text, fun heq => hlevels (heq ▸ topicLevels_empty), htopic⟩
  have hx : ∀ l ∈ ["x"], NameLevel l := List.forall_mem_singleton.mpr nameLevel_x
  have hbelow : ∀ l ∈ ["", "x"], NameLevel l := by
    refine List.forall_mem_cons.mpr ⟨?_, hx⟩
    unfold NameLevel PlainLevel
    decide
  obtain ⟨hax, hay⟩ := match_empty hxs (hnotEmpty ha)
  obtain ⟨hbx, hby⟩ := match_empty hys (hnotEmpty hb)
  rcases hax with hax | hax
  · rcases hbx with hbx | hbx
    · exact hname ["x"] hax hbx (by decide) (by decide) hx
    · rcases hay with hay | hay
      · refine hname ["", "x"] hay ?_ (by decide) (by decide) hbelow
        rw [hbx]
        exact .level "" (.hash ["x"])
      · exact absurd (.inl ⟨(topicLevels_eq_iff "+" topicLevels_plus).mp hay,
          (topicLevels_eq_iff "/#" topicLevels_slashHash).mp hbx⟩) hmeets
  · rcases hby with hby | hby
    · refine hname ["", "x"] ?_ hby (by decide) (by decide) hbelow
      rw [hax]
      exact .level "" (.hash ["x"])
    · exact absurd (.inr ⟨(topicLevels_eq_iff "/#" topicLevels_slashHash).mp hax,
        (topicLevels_eq_iff "+" topicLevels_plus).mp hby⟩) hmeets

/-- `FiltersOverlap` tells whether a topic is matched by both filters; all but two filters that
overlap have a topic name in common. -/
theorem filtersOverlap_exact {a b : String} (ha : isValidTopicFilter a = true)
    (hb : isValidTopicFilter b = true) :
    (filtersOverlap a b = true ↔ SharesTopic a b) ∧
      (SharesTopicName a b ↔ filtersOverlap a b = true ∧ ¬ MeetsInEmpty a b) ∧
      filtersOverlap a b = filtersOverlap b a := by
  have hoverlap : filtersOverlap a b = true ↔ SharesTopic a b := by
    constructor
    · intro h
      obtain ⟨topic, hxs, hys, hnames, hne⟩ := exists_match_of_levelsOverlap
        (validLevels_topicLevels ha) (validLevels_topicLevels hb) h
      obtain ⟨text, -, htopic⟩ := sharesTopic_of_levels hxs hys hnames
        (hne (topicLevels_ne_nil a) (topicLevels_ne_nil b))
      exact ⟨text, htopic⟩
    · rintro ⟨topic, -, hxs, hys⟩
      exact levelsOverlap_of_match hxs hys
  refine ⟨hoverlap, ?_, levelsOverlap_comm _ _⟩
  rw [hoverlap]
  constructor
  · intro h
    refine ⟨?_, fun hmeets => hmeets.not_sharesTopicName h⟩
    obtain ⟨topic, -, htopic⟩ := h
    exact ⟨topic, htopic⟩
  · rintro ⟨h, hmeets⟩
    exact sharesTopicName_of_sharesTopic ha hb h hmeets

theorem filtersOverlap_exact_loops :
    isValidTopicFilter "site/+/pv" = true ∧ isValidTopicFilter "site/loop7/#" = true ∧
      SharesTopicName "site/+/pv" "site/loop7/#" :=
  ⟨by decide, by decide, (filtersOverlap_exact (a := "site/+/pv") (b := "site/loop7/#") (by decide)
    (by decide)).2.1.mpr ⟨by decide, by unfold MeetsInEmpty; decide⟩⟩

/-- Two filters that overlap, although no topic name is matched by both. -/
theorem overlap_without_topicName : isValidTopicFilter "+" = true ∧ isValidTopicFilter "/#" = true ∧
    filtersOverlap "+" "/#" = true ∧ ¬ SharesTopicName "+" "/#" := by
  have hmeets : MeetsInEmpty "+" "/#" := .inl ⟨rfl, rfl⟩
  exact ⟨by decide, by decide, by decide, hmeets.not_sharesTopicName⟩

end OpenBridge.Ingestion
