import Mathlib.Data.List.Count
import Mathlib.Data.List.Flatten
import Mathlib.Data.List.Sort
import OpenBridge.Foundation.Machine

/-!
# Analytics: the daily partitions of the result tables

`FeaturePartitions.MaintainOnceAsync`, statement by statement, with the rows that other sessions
commit between its statements.  A statement sees what was committed when it starts, and the work of
its own transaction; a transaction that has created or dropped a partition holds the table, so that
inserts wait for its end.  Days are numbered from 1970-01-01, times are microseconds from its midnight.
-/

namespace OpenBridge.Analytics

open OpenBridge.Foundation

structure FeatureRow where
  id : ℕ
  windowEnd : ℤ
  columns : String
  deriving DecidableEq

def dayLength : ℤ := 86400000000

def FeatureRow.day (r : FeatureRow) : ℤ := r.windowEnd / dayLength

namespace FeaturePartitions

/-- `Tables`. -/
inductive FeatureTable where
  | short
  | long
  | gate
  deriving DecidableEq

def tables : List FeatureTable := [.short, .long, .gate]

/-- The retention of a table that has no row in `retention_policy`. -/
def FeatureTable.defaultDays : FeatureTable → ℤ
  | short => 3
  | long => 30
  | gate => 30

def midnight (d : ℤ) : ℤ := d * dayLength

/-- A table: its default partition, and a partition of each of some days. -/
structure Layout where
  partitioned : Bool
  parked : List FeatureRow
  parts : List (ℤ × List FeatureRow)
  deriving DecidableEq

namespace Layout

/-- `ExistingDaysAsync`. -/
def existingDays (l : Layout) : List ℤ := l.parts.map Prod.fst

def rows (l : Layout) : List FeatureRow := l.parked ++ l.parts.flatMap Prod.snd

def ofDay (l : Layout) (d : ℤ) : List FeatureRow :=
  l.parked.filter fun r => midnight d ≤ r.windowEnd ∧ r.windowEnd < midnight (d + 1)

def put (l : Layout) (r : FeatureRow) : Layout :=
  if r.day ∈ l.existingDays then
    { l with parts := l.parts.map fun p => if p.1 = r.day then (p.1, p.2 ++ [r]) else p }
  else { l with parked := l.parked ++ [r] }

/-- What `CreateDayAsync` commits: the rows it has moved, and the partition with the rows it has filled
in. -/
def createDay (l : Layout) (d : ℤ) (moved filled : List FeatureRow) : Layout :=
  { l with parked := l.parked.diff moved, parts := l.parts ++ [(d, filled)] }

/-- What `DropDayAsync` commits. -/
def dropDay (l : Layout) (d : ℤ) : Layout :=
  { l with parts := l.parts.filter fun p => p.1 ≠ d }

def prune (l : Layout) (cutoff : ℤ) : Layout :=
  { l with parked := l.parked.filter fun r => ¬ r.windowEnd < cutoff }

end Layout

/-- What the transaction under way has done. -/
inductive Transaction where
  | idle
  /-- the rows of the day are in `relocate_rows` -/
  | copied (day : ℤ) (relocate : List FeatureRow)
  /-- the rows of the day are deleted from the default partition -/
  | deleted (day : ℤ) (relocate moved : List FeatureRow)
  /-- the partition of the day is created -/
  | created (day : ℤ) (relocate moved : List FeatureRow)
  /-- it is filled -/
  | filled (day : ℤ) (moved filled : List FeatureRow)
  /-- the partition of the day is dropped -/
  | dropped (day : ℤ)
  deriving DecidableEq

def Transaction.locks : Transaction → Bool
  | created _ _ _ => true
  | filled _ _ _ => true
  | dropped _ => true
  | _ => false

inductive Pass where
  /-- the tables still to do -/
  | next (rest : List FeatureTable)
  | working (table : FeatureTable) (toCreate toDrop : List ℤ) (rest : List FeatureTable)
      (transaction : Transaction)
  | completed
  | failed
  deriving DecidableEq

structure Maintenance where
  layout : FeatureTable → Layout
  pass : Pass

/-- What another session commits, the next statement of the pass, or its end by a crash, a timeout or
a cancellation. -/
inductive Event where
  | insert (table : FeatureTable) (row : FeatureRow)
  | advance
  | abort
  deriving DecidableEq

section Steps

/- The day of the pass, the days ahead, and `retention_policy`. -/
variable (today lookaheadDays : ℤ) (retentionDays : FeatureTable → Option ℤ)

def cutoff (t : FeatureTable) : ℤ := today - max 1 ((retentionDays t).getD t.defaultDays)

def daysAhead : List ℤ := (List.range (lookaheadDays.toNat + 1)).map fun i => today + i

def beginTable (l : Layout) (t : FeatureTable) (rest : List FeatureTable) : Pass :=
  if l.partitioned = true then
    .working t ((daysAhead today lookaheadDays).filter fun d => d ∉ l.existingDays)
      ((l.existingDays.filter fun d => d < cutoff today retentionDays t).insertionSort (· ≤ ·)) rest
      .idle
  else .next rest

def advance (l : Layout) (t : FeatureTable) (toCreate toDrop : List ℤ) (rest : List FeatureTable) :
    Transaction → Layout × Pass
  | .idle =>
      match toCreate, toDrop with
      | d :: toCreate, _ => (l, .working t toCreate toDrop rest (.copied d (l.ofDay d)))
      | [], d :: toDrop => (l, .working t [] toDrop rest (.dropped d))
      | [], [] => (l.prune (midnight (cutoff today retentionDays t)), .next rest)
  | .copied d relocate => (l, .working t toCreate toDrop rest (.deleted d relocate (l.ofDay d)))
  | .deleted d relocate moved =>
      -- a partition of that day, or a row of that day that is left, is refused
      if d ∈ l.existingDays ∨ ({ l with parked := l.parked.diff moved }.ofDay d) ≠ [] then (l, .failed)
      else (l, .working t toCreate toDrop rest (.created d relocate moved))
  | .created d relocate moved =>
      (l, .working t toCreate toDrop rest (.filled d moved (if 0 < moved.length then relocate else [])))
  | .filled d moved filled => (l.createDay d moved filled, .working t toCreate toDrop rest .idle)
  | .dropped d => (l.dropDay d, .working t toCreate toDrop rest .idle)

def Pass.locks (t : FeatureTable) : Pass → Bool
  | .working u _ _ _ transaction => u = t && transaction.locks
  | _ => false

def step (s : Maintenance) : Event → Maintenance × List (FeatureTable × FeatureRow)
  | .insert t r =>
      if s.pass.locks t = true then (s, [])
      else ({ s with layout := Function.update s.layout t ((s.layout t).put r) }, [(t, r)])
  | .advance =>
      match s.pass with
      | .next [] => ({ s with pass := .completed }, [])
      | .next (t :: rest) =>
          ({ s with pass := beginTable today lookaheadDays retentionDays (s.layout t) t rest }, [])
      | .working t toCreate toDrop rest transaction =>
          ({ layout := Function.update s.layout t
              (advance today retentionDays (s.layout t) t toCreate toDrop rest transaction).1
             pass := (advance today retentionDays (s.layout t) t toCreate toDrop rest transaction).2 },
            [])
      | .completed => (s, [])
      | .failed => (s, [])
  | .abort =>
      match s.pass with
      | .completed => (s, [])
      | _ => ({ s with pass := .failed }, [])

def start (enabled : Bool) (layout : FeatureTable → Layout) : Maintenance :=
  { layout := layout, pass := if enabled = true then .next tables else .completed }

def after (s : Maintenance) (run : List Event) : Maintenance :=
  Machine.stateAfter (step today lookaheadDays retentionDays) s run

def committed (s : Maintenance) (run : List Event) : List (FeatureTable × FeatureRow) :=
  Machine.outputs (step today lookaheadDays retentionDays) s run

end Steps

end FeaturePartitions

/-!
# Analytics: the rows that a maintenance pass keeps

Where no row of a day is committed between its two statements, every row from the cutoff on is there
as often as it was committed.
-/

namespace FeaturePartitions

/-- The constraints of the partitions: a day has one, which holds rows of the day, and the default
partition holds the rows of no such day. -/
structure Layout.Placed (l : Layout) : Prop where
  days : l.existingDays.Nodup
  inPart : ∀ p ∈ l.parts, ∀ r ∈ p.2, r.day = p.1
  inDefault : ∀ r ∈ l.parked, r.day ∉ l.existingDays

/-- No row of the day that is being created is committed between its copy and its deletion. -/
def Quiet (s : Maintenance) : Event → Bool
  | .insert t r =>
      match s.pass with
      | .working u _ _ _ (.copied d _) => ¬ (u = t ∧ r.day = d)
      | _ => true
  | _ => true

/-! ## The layouts -/

section Layouts

variable {l : Layout} {d : ℤ} {moved : List FeatureRow}

theorem day_eq_iff {r : FeatureRow} :
    r.day = d ↔ midnight d ≤ r.windowEnd ∧ r.windowEnd < midnight (d + 1) := by
  unfold FeatureRow.day midnight
  have hpos : (0 : ℤ) < dayLength := by decide
  constructor
  · intro h
    refine ⟨?_, ?_⟩
    · exact (Int.le_ediv_iff_mul_le hpos).mp h.ge
    · exact (Int.ediv_lt_iff_lt_mul hpos).mp (by omega)
  · rintro ⟨hle, hlt⟩
    have hfrom := (Int.le_ediv_iff_mul_le hpos).mpr hle
    have hto := (Int.ediv_lt_iff_lt_mul hpos).mpr hlt
    omega

theorem mem_ofDay {r : FeatureRow} : r ∈ l.ofDay d ↔ r ∈ l.parked ∧ r.day = d := by
  unfold Layout.ofDay
  rw [List.mem_filter, decide_eq_true_eq, day_eq_iff]

theorem windowEnd_lt_of_day {r : FeatureRow} {c : ℤ} (h : r.day < c) : r.windowEnd < midnight c := by
  have hday := (day_eq_iff (r := r)).mp rfl
  have hle : midnight (r.day + 1) ≤ midnight c := by
    unfold midnight
    exact Int.mul_le_mul_of_nonneg_right (by omega) (by decide)
  exact hday.2.trans_le hle

theorem count_rows (l : Layout) (x : FeatureRow) :
    l.rows.count x = l.parked.count x + (l.parts.flatMap Prod.snd).count x := by
  unfold Layout.rows
  exact List.count_append

theorem count_parts_put {parts : List (ℤ × List FeatureRow)} {r : FeatureRow}
    (hdays : (parts.map Prod.fst).Nodup) (hmem : r.day ∈ parts.map Prod.fst) (x : FeatureRow) :
    ((parts.map fun p => if p.1 = r.day then (p.1, p.2 ++ [r]) else p).flatMap Prod.snd).count x =
      (parts.flatMap Prod.snd).count x + [r].count x := by
  induction parts with
  | nil => cases hmem
  | cons p rest ih =>
    rw [List.map_cons, List.nodup_cons] at hdays
    rw [List.map_cons, List.flatMap_cons, List.flatMap_cons, List.count_append, List.count_append]
    by_cases hp : p.1 = r.day
    · have hrest : (rest.map fun p => if p.1 = r.day then (p.1, p.2 ++ [r]) else p) = rest := by
        refine (List.map_congr_left fun q hq => if_neg fun hq' => ?_).trans (List.map_id' rest)
        exact hdays.1 (hp.trans hq'.symm ▸ List.mem_map_of_mem hq)
      rw [if_pos hp, hrest, List.count_append]
      omega
    · have hmem' : r.day ∈ rest.map Prod.fst := by
        rcases List.mem_cons.mp hmem with heq | hmem
        · exact absurd heq.symm hp
        · exact hmem
      rw [if_neg hp, ih hdays.2 hmem']
      omega

theorem existingDays_put (r : FeatureRow) : (l.put r).existingDays = l.existingDays := by
  unfold Layout.put Layout.existingDays
  split
  · dsimp only
    rw [List.map_map]
    refine List.map_congr_left fun p _ => ?_
    rw [Function.comp_apply]
    split
    · rfl
    · rfl
  · rfl

theorem Layout.Placed.count_put (h : l.Placed) (r x : FeatureRow) :
    (l.put r).rows.count x = l.rows.count x + [r].count x := by
  rw [count_rows, count_rows]
  unfold Layout.put
  split
  · rename_i hmem
    dsimp only
    rw [count_parts_put h.days hmem, Nat.add_assoc]
  · dsimp only
    rw [List.count_append]
    omega

theorem Layout.Placed.put (h : l.Placed) (r : FeatureRow) : (l.put r).Placed := by
  refine ⟨by rw [existingDays_put]; exact h.days, ?_, ?_⟩
  · unfold Layout.put
    split
    · intro p hp x hx
      obtain ⟨q, hq, rfl⟩ := List.mem_map.mp hp
      split at hx
      · rename_i hday
        rw [if_pos hday]
        rcases List.mem_append.mp hx with hx | hx
        · exact h.inPart q hq x hx
        · rw [List.mem_singleton.mp hx]
          exact hday.symm
      · rename_i hday
        rw [if_neg hday]
        exact h.inPart q hq x hx
    · exact h.inPart
  · rw [existingDays_put]
    unfold Layout.put
    split
    · exact h.inDefault
    · rename_i hday
      intro x hx
      rcases List.mem_append.mp hx with hx | hx
      · exact h.inDefault x hx
      · rw [List.mem_singleton.mp hx]
        exact hday

theorem count_createDay (hsub : moved.Sublist l.parked) (x : FeatureRow) :
    (l.createDay d moved moved).rows.count x = l.rows.count x := by
  rw [count_rows, count_rows]
  unfold Layout.createDay
  dsimp only
  rw [List.count_diff, List.flatMap_append, List.count_append, List.flatMap_singleton]
  have hle := hsub.count_le x
  dsimp only
  omega

theorem Layout.Placed.createDay (h : l.Placed) (hnew : d ∉ l.existingDays)
    (hmoved : ∀ r ∈ moved, r.day = d) (hleft : ∀ r ∈ l.parked.diff moved, r.day ≠ d) :
    (l.createDay d moved moved).Placed := by
  have hdays : (l.createDay d moved moved).existingDays = l.existingDays ++ [d] := by
    unfold Layout.createDay Layout.existingDays
    exact List.map_append
  refine ⟨?_, ?_, ?_⟩
  · rw [hdays]
    refine h.days.append (List.nodup_singleton d) ?_
    intro x hx hd
    exact hnew (List.mem_singleton.mp hd ▸ hx)
  · intro p hp r hr
    rcases List.mem_append.mp hp with hp | hp
    · exact h.inPart p hp r hr
    · obtain rfl := List.mem_singleton.mp hp
      exact hmoved r hr
  · intro r hr hmem
    rw [hdays] at hmem
    rcases List.mem_append.mp hmem with hmem | hmem
    · exact h.inDefault r (List.diff_subset _ _ hr) hmem
    · exact hleft r hr (List.mem_singleton.mp hmem)

theorem count_filter_parts_le {parts : List (ℤ × List FeatureRow)} (x : FeatureRow) :
    ((parts.filter fun p => p.1 ≠ d).flatMap Prod.snd).count x ≤ (parts.flatMap Prod.snd).count x :=
  (List.filter_sublist.flatMap Prod.snd).count_le x

theorem count_filter_parts {parts : List (ℤ × List FeatureRow)}
    (hpart : ∀ p ∈ parts, ∀ r ∈ p.2, r.day = p.1) {x : FeatureRow} (hx : x.day ≠ d) :
    ((parts.filter fun p => p.1 ≠ d).flatMap Prod.snd).count x = (parts.flatMap Prod.snd).count x := by
  induction parts with
  | nil => rfl
  | cons p rest ih =>
    have hrest := ih fun q hq => hpart q (List.mem_cons_of_mem p hq)
    by_cases hp : p.1 = d
    · have hzero : p.2.count x = 0 := by
        refine List.count_eq_zero.mpr fun hmem => hx ?_
        rw [hpart p List.mem_cons_self x hmem, hp]
      rw [List.filter_cons, if_neg (by simpa using hp), hrest, List.flatMap_cons,
        List.count_append, hzero, Nat.zero_add]
    · rw [List.filter_cons, if_pos (decide_eq_true hp), List.flatMap_cons, List.flatMap_cons,
        List.count_append, List.count_append, hrest]

theorem count_dropDay_le (x : FeatureRow) : (l.dropDay d).rows.count x ≤ l.rows.count x := by
  rw [count_rows, count_rows]
  exact Nat.add_le_add_left (count_filter_parts_le x) _

theorem Layout.Placed.count_dropDay (h : l.Placed) {x : FeatureRow} (hx : x.day ≠ d) :
    (l.dropDay d).rows.count x = l.rows.count x := by
  rw [count_rows, count_rows]
  exact congrArg _ (count_filter_parts h.inPart hx)

theorem Layout.Placed.dropDay (h : l.Placed) : (l.dropDay d).Placed := by
  have hsub : (l.dropDay d).existingDays.Sublist l.existingDays :=
    List.Sublist.map _ List.filter_sublist
  refine ⟨h.days.sublist hsub, ?_, ?_⟩
  · intro p hp
    exact h.inPart p (List.mem_of_mem_filter hp)
  · intro r hr hmem
    exact h.inDefault r hr (hsub.subset hmem)

theorem count_prune_le {c : ℤ} (x : FeatureRow) : (l.prune c).rows.count x ≤ l.rows.count x := by
  rw [count_rows, count_rows]
  exact Nat.add_le_add_right (List.filter_sublist.count_le x) _

theorem count_prune {c : ℤ} {x : FeatureRow} (hx : c ≤ x.windowEnd) :
    (l.prune c).rows.count x = l.rows.count x := by
  rw [count_rows, count_rows]
  unfold Layout.prune
  dsimp only
  have hcount : (l.parked.filter fun r => ¬ r.windowEnd < c).count x = l.parked.count x :=
    List.count_filter (decide_eq_true (Int.not_lt.mpr hx))
  rw [hcount]

theorem Layout.Placed.prune (h : l.Placed) (c : ℤ) : (l.prune c).Placed :=
  ⟨h.days, h.inPart, fun r hr => h.inDefault r (List.mem_of_mem_filter hr)⟩

end Layouts

/-! ## The statements -/

section Statements

variable {today lookaheadDays : ℤ} {retentionDays : FeatureTable → Option ℤ}

/-- The transaction of a layout has moved what it has copied. -/
def Transaction.Sound (l : Layout) (cutoffDay : ℤ) : Transaction → Prop
  | idle => True
  | copied d relocate => relocate = l.ofDay d
  | deleted d relocate moved =>
      relocate = moved ∧ moved.Sublist l.parked ∧ ∀ r ∈ moved, r.day = d
  | created d relocate moved =>
      relocate = moved ∧ moved.Sublist l.parked ∧ (∀ r ∈ moved, r.day = d) ∧
        d ∉ l.existingDays ∧ ∀ r ∈ l.parked.diff moved, r.day ≠ d
  | filled d moved rows =>
      rows = moved ∧ moved.Sublist l.parked ∧ (∀ r ∈ moved, r.day = d) ∧
        d ∉ l.existingDays ∧ ∀ r ∈ l.parked.diff moved, r.day ≠ d
  | dropped d => d < cutoffDay

def Pass.Sound (cutoffDay : FeatureTable → ℤ) (layout : FeatureTable → Layout) : Pass → Prop
  | working t _ toDrop _ transaction =>
      (∀ d ∈ toDrop, d < cutoffDay t) ∧ transaction.Sound (layout t) (cutoffDay t)
  | _ => True

structure Sound (cutoffDay : FeatureTable → ℤ) (s : Maintenance) : Prop where
  placed : ∀ t, (s.layout t).Placed
  pass : s.pass.Sound cutoffDay s.layout

/-- A row is in a table at most as often as before and as it was committed, and exactly as often where
it ends at the cutoff or later. -/
def Accounted (cutoffDay : ℤ) (old new : Layout) (n : ℕ) (x : FeatureRow) : Prop :=
  new.rows.count x ≤ old.rows.count x + n ∧
    (midnight cutoffDay ≤ x.windowEnd → new.rows.count x = old.rows.count x + n)

theorem Accounted.of_eq {cutoffDay : ℤ} {old new : Layout} {n : ℕ} {x : FeatureRow}
    (h : new.rows.count x = old.rows.count x + n) : Accounted cutoffDay old new n x :=
  ⟨h.le, fun _ => h⟩

theorem Accounted.trans {cutoffDay : ℤ} {old mid new : Layout} {m n : ℕ} {x : FeatureRow}
    (h : Accounted cutoffDay old mid m x) (h' : Accounted cutoffDay mid new n x) :
    Accounted cutoffDay old new (m + n) x := by
  obtain ⟨hle, heq⟩ := h
  obtain ⟨hle', heq'⟩ := h'
  refine ⟨by omega, fun hx => ?_⟩
  rw [heq' hx, heq hx, Nat.add_assoc]

theorem ofDay_sublist (l : Layout) (d : ℤ) : (l.ofDay d).Sublist l.parked := List.filter_sublist

theorem advance_sound {l : Layout} {t : FeatureTable} {toCreate toDrop : List ℤ}
    {rest : List FeatureTable} {transaction : Transaction} (hl : l.Placed)
    (hdrop : ∀ d ∈ toDrop, d < cutoff today retentionDays t)
    (h : transaction.Sound l (cutoff today retentionDays t)) {result : Layout × Pass}
    (hresult : advance today retentionDays l t toCreate toDrop rest transaction = result) :
    result.1.Placed ∧
      (∀ x, Accounted (cutoff today retentionDays t) l result.1 0 x) ∧
      ∀ layout : FeatureTable → Layout, layout t = result.1 →
        result.2.Sound (cutoff today retentionDays) layout := by
  have hsame : ∀ x, Accounted (cutoff today retentionDays t) l l 0 x := fun x => .of_eq rfl
  unfold advance at hresult
  cases transaction with
  | idle =>
    dsimp only at hresult
    split at hresult
    · subst hresult
      exact ⟨hl, hsame, fun layout hlayout => ⟨hdrop, hlayout ▸ rfl⟩⟩
    · rename_i d toDrop'
      subst hresult
      refine ⟨hl, hsame, fun layout hlayout => ⟨fun d' hd' => ?_, hdrop d List.mem_cons_self⟩⟩
      exact hdrop d' (List.mem_cons_of_mem d hd')
    · subst hresult
      refine ⟨hl.prune _, fun x => ⟨count_prune_le x, fun hx => count_prune hx⟩, fun _ _ => trivial⟩
  | copied d relocate =>
    subst hresult
    refine ⟨hl, hsame, fun layout hlayout => ⟨hdrop, h, ?_, ?_⟩⟩
    · rw [hlayout]
      exact ofDay_sublist l d
    · exact fun r hr => (mem_ofDay.mp hr).2
  | deleted d relocate moved =>
    dsimp only at hresult
    split at hresult
    · subst hresult
      exact ⟨hl, hsame, fun _ _ => trivial⟩
    · rename_i hrefused
      obtain ⟨hnew, hleft⟩ := not_or.mp hrefused
      subst hresult
      refine ⟨hl, hsame, fun layout hlayout => ⟨hdrop, ?_⟩⟩
      rw [hlayout]
      refine ⟨h.1, h.2.1, h.2.2, hnew, fun r hr hday => ?_⟩
      rw [not_not] at hleft
      have hmem : r ∈ ({ l with parked := l.parked.diff moved } : Layout).ofDay d :=
        mem_ofDay.mpr ⟨hr, hday⟩
      rw [hleft] at hmem
      exact List.not_mem_nil hmem
  | created d relocate moved =>
    subst hresult
    obtain ⟨rfl, hrest⟩ := h
    refine ⟨hl, hsame, fun layout hlayout => ⟨hdrop, ?_⟩⟩
    rw [hlayout]
    refine ⟨?_, hrest⟩
    split
    · rfl
    · rename_i hnone
      exact (List.length_eq_zero_iff.mp (Nat.eq_zero_of_not_pos hnone)).symm
  | filled d moved filled =>
    subst hresult
    obtain ⟨rfl, hsub, hmoved, hnew, hleft⟩ := h
    refine ⟨hl.createDay hnew hmoved hleft, fun x => .of_eq (count_createDay hsub x), ?_⟩
    exact fun layout hlayout => ⟨hdrop, trivial⟩
  | dropped d =>
    subst hresult
    refine ⟨hl.dropDay, fun x => ⟨count_dropDay_le x, fun hx => ?_⟩, ?_⟩
    · refine hl.count_dropDay fun hday => ?_
      have hlt := windowEnd_lt_of_day (hday ▸ h)
      omega
    · exact fun layout hlayout => ⟨hdrop, trivial⟩

theorem parked_put (l : Layout) (r : FeatureRow) :
    (l.put r).parked = l.parked ∨ (l.put r).parked = l.parked ++ [r] := by
  unfold Layout.put
  split
  · exact .inl rfl
  · exact .inr rfl

theorem Transaction.Sound.put {l : Layout} {cutoffDay : ℤ} {transaction : Transaction}
    (h : transaction.Sound l cutoffDay) (hfree : ¬ transaction.locks = true) (r : FeatureRow)
    (hquiet : ∀ d relocate, transaction = .copied d relocate → r.day ≠ d) :
    transaction.Sound (l.put r) cutoffDay := by
  cases transaction with
  | idle => trivial
  | copied d relocate =>
    have hday := hquiet d relocate rfl
    have hofDay : (l.put r).ofDay d = l.ofDay d := by
      unfold Layout.ofDay
      rcases parked_put l r with hparked | hparked
      · rw [hparked]
      · have hout : ¬ (midnight d ≤ r.windowEnd ∧ r.windowEnd < midnight (d + 1)) :=
          fun hin => hday (day_eq_iff.mpr hin)
        rw [hparked, List.filter_append, List.filter_singleton, decide_eq_false hout]
        exact List.append_nil _
    exact Eq.trans h hofDay.symm
  | deleted d relocate moved =>
    refine ⟨h.1, h.2.1.trans ?_, h.2.2⟩
    rcases parked_put l r with hparked | hparked
    · rw [hparked]
    · rw [hparked]
      exact List.sublist_append_left _ _
  | created d relocate moved => exact absurd rfl hfree
  | filled d moved rows => exact absurd rfl hfree
  | dropped d => exact absurd rfl hfree

theorem Pass.Sound.update {cutoffDay : FeatureTable → ℤ} {layout : FeatureTable → Layout} {pass : Pass}
    (h : pass.Sound cutoffDay layout) {t : FeatureTable} {l : Layout}
    (hsame : ∀ toCreate toDrop rest transaction,
      pass = .working t toCreate toDrop rest transaction → transaction.Sound l (cutoffDay t)) :
    pass.Sound cutoffDay (Function.update layout t l) := by
  cases pass with
  | next rest => trivial
  | working u toCreate toDrop rest transaction =>
    refine ⟨h.1, ?_⟩
    by_cases htable : u = t
    · subst htable
      rw [Function.update_self]
      exact hsame toCreate toDrop rest transaction rfl
    · rw [Function.update_of_ne htable]
      exact h.2
  | completed => trivial
  | failed => trivial

theorem accounted_update {layout : FeatureTable → Layout} {cutoffDay : FeatureTable → ℤ}
    {t : FeatureTable} {l : Layout} {n : FeatureTable → FeatureRow → ℕ}
    (h : ∀ x, Accounted (cutoffDay t) (layout t) l (n t x) x) (hother : ∀ u x, u ≠ t → n u x = 0)
    (u : FeatureTable) (x : FeatureRow) :
    Accounted (cutoffDay u) (layout u) (Function.update layout t l u) (n u x) x := by
  by_cases htable : u = t
  · subst htable
    rw [Function.update_self]
    exact h x
  · rw [Function.update_of_ne htable, hother u x htable]
    exact .of_eq rfl

theorem placed_update {layout : FeatureTable → Layout} (h : ∀ t, (layout t).Placed) {t : FeatureTable}
    {l : Layout} (hl : l.Placed) (u : FeatureTable) : (Function.update layout t l u).Placed := by
  by_cases htable : u = t
  · subst htable
    rw [Function.update_self]
    exact hl
  · rw [Function.update_of_ne htable]
    exact h u

theorem count_entry (t : FeatureTable) (r x : FeatureRow) :
    [(t, r)].count (t, x) = [r].count x := by
  rw [List.count_singleton, List.count_singleton]
  refine if_congr ?_ rfl rfl
  rw [beq_iff_eq, beq_iff_eq, Prod.mk.injEq]
  exact and_iff_right rfl

theorem Sound.step {s : Maintenance} (h : Sound (cutoff today retentionDays) s) (e : Event)
    (hquiet : Quiet s e = true) :
    Sound (cutoff today retentionDays) (step today lookaheadDays retentionDays s e).1 ∧
      ∀ t x, Accounted (cutoff today retentionDays t) (s.layout t)
        ((FeaturePartitions.step today lookaheadDays retentionDays s e).1.layout t)
        ((FeaturePartitions.step today lookaheadDays retentionDays s e).2.count (t, x)) x := by
  have hsame : ∀ t x, Accounted (cutoff today retentionDays t) (s.layout t) (s.layout t) 0 x :=
    fun _ _ => .of_eq rfl
  unfold FeaturePartitions.step
  cases e with
  | insert t r =>
    dsimp only
    split
    · exact ⟨h, hsame⟩
    · rename_i hfree
      refine ⟨⟨placed_update h.placed ((h.placed t).put r), h.pass.update ?_⟩, ?_⟩
      · intro toCreate toDrop rest transaction hpass
        have hsound := h.pass
        rw [hpass] at hsound hfree
        refine hsound.2.put ?_ r ?_
        · intro hlocks
          exact hfree (Bool.and_eq_true_iff.mpr ⟨decide_eq_true rfl, hlocks⟩)
        · rintro d relocate rfl hday
          unfold Quiet at hquiet
          dsimp only at hquiet
          rw [hpass] at hquiet
          exact of_decide_eq_true hquiet ⟨rfl, hday⟩
      · refine accounted_update (n := fun u x => [(t, r)].count (u, x)) (fun x => .of_eq ?_) ?_
        · rw [(h.placed t).count_put, count_entry]
        · intro u x htable
          refine List.count_eq_zero.mpr fun hmem => htable ?_
          exact congrArg Prod.fst (List.mem_singleton.mp hmem)
  | advance =>
    dsimp only
    split
    · exact ⟨⟨h.placed, trivial⟩, hsame⟩
    · rename_i t rest hpass
      refine ⟨⟨h.placed, ?_⟩, hsame⟩
      unfold beginTable
      dsimp only
      split
      · refine ⟨fun d hd => ?_, trivial⟩
        rw [List.mem_insertionSort] at hd
        exact of_decide_eq_true (List.mem_filter.mp hd).2
      · trivial
    · rename_i t toCreate toDrop rest transaction hpass
      have hsound := h.pass
      rw [hpass] at hsound
      obtain ⟨hplaced, haccounted, hnext⟩ :=
        advance_sound (h.placed t) hsound.1 hsound.2 rfl
      refine ⟨⟨placed_update h.placed hplaced, hnext _ (Function.update_self _ _ _)⟩, ?_⟩
      exact accounted_update (n := fun _ _ => 0) haccounted fun _ _ _ => rfl
    · exact ⟨h, hsame⟩
    · exact ⟨h, hsame⟩
  | abort =>
    dsimp only
    split
    · exact ⟨h, hsame⟩
    · exact ⟨⟨h.placed, trivial⟩, hsame⟩

end Statements

theorem Sound.run {today lookaheadDays : ℤ} {retentionDays : FeatureTable → Option ℤ}
    {s : Maintenance} (h : Sound (cutoff today retentionDays) s) {run : List Event}
    (hquiet : Machine.Always (FeaturePartitions.step today lookaheadDays retentionDays)
      (fun s e => Quiet s e = true) s run) (t : FeatureTable) :
    (∀ x, Accounted (cutoff today retentionDays t) (s.layout t)
        ((after today lookaheadDays retentionDays s run).layout t)
        ((committed today lookaheadDays retentionDays s run).count (t, x)) x) ∧
      ((after today lookaheadDays retentionDays s run).layout t).Placed := by
  induction run generalizing s with
  | nil => exact ⟨fun x => .of_eq rfl, h.placed t⟩
  | cons e rest ih =>
    obtain ⟨hnext, haccounted⟩ := h.step e hquiet.1
    obtain ⟨hrest, hlast⟩ := ih hnext hquiet.2
    refine ⟨fun x => ?_, hlast⟩
    unfold committed
    rw [Machine.outputs_cons, List.count_append]
    exact (haccounted t x).trans (hrest x)

theorem Sound.start {today : ℤ} {retentionDays : FeatureTable → Option ℤ} (enabled : Bool)
    {layout : FeatureTable → Layout} (hplaced : ∀ t, (layout t).Placed) :
    Sound (cutoff today retentionDays) (start enabled layout) := by
  refine ⟨hplaced, ?_⟩
  unfold FeaturePartitions.start
  dsimp only
  split
  · trivial
  · trivial

/-- After any quiet steps a row from the cutoff on is in its table exactly as often as it was there
and was committed, any other at most as often, and every row of a day with a partition is in it. -/
theorem maintenance_keeps_rows (today lookaheadDays : ℤ) (retentionDays : FeatureTable → Option ℤ)
    (enabled : Bool) (layout : FeatureTable → Layout) (hplaced : ∀ t, (layout t).Placed)
    (run : List Event)
    (hquiet : Machine.Always (step today lookaheadDays retentionDays) (fun s e => Quiet s e = true)
      (start enabled layout) run) :
    ∀ t, (∀ x, Accounted (cutoff today retentionDays t) (layout t)
        ((after today lookaheadDays retentionDays (start enabled layout) run).layout t)
        ((committed today lookaheadDays retentionDays (start enabled layout) run).count (t, x)) x) ∧
      ((after today lookaheadDays retentionDays (start enabled layout) run).layout t).Placed :=
  fun t => (Sound.start enabled hplaced).run hquiet t

def october : ℤ := 20728

def octoberRow (id : ℕ) : FeatureRow := ⟨id, october * dayLength + id, "FIC101"⟩

def parkedRow (t : FeatureTable) : Layout :=
  if t = .short then ⟨true, [octoberRow 1], []⟩ else ⟨false, [], []⟩

theorem parkedRow_placed (t : FeatureTable) : (parkedRow t).Placed := by
  have hparts : (parkedRow t).parts = [] := by cases t <;> rfl
  have hdays : (parkedRow t).existingDays = [] := congrArg (List.map Prod.fst) hparts
  refine ⟨by rw [hdays]; exact .nil, fun p hp => ?_, fun r _ hmem => ?_⟩
  · rw [hparts] at hp
    exact absurd hp List.not_mem_nil
  · rw [hdays] at hmem
    exact absurd hmem List.not_mem_nil

def quietPass : List Event := .insert .short (octoberRow 2) :: List.replicate 11 .advance

theorem maintenance_keeps_rows_quietPass :
    (after october 0 (fun _ => none) (start true parkedRow) quietPass).pass = .completed ∧
      ∃ l, (after october 0 (fun _ => none) (start true parkedRow) quietPass).layout .short = l ∧
        l.Placed ∧ Accounted (october - 3) (parkedRow .short) l 1 (octoberRow 2) := by
  have hkeeps := maintenance_keeps_rows october 0 (fun _ => none) true parkedRow parkedRow_placed
    quietPass (by decide) .short
  exact ⟨by decide, _, rfl, hkeeps.2, hkeeps.1 (octoberRow 2)⟩

def busyPass : List Event :=
  [.advance, .advance, .insert .short (octoberRow 2)] ++ List.replicate 9 .advance

/-- The row is deleted and not filled in. -/
theorem committed_row_lost : ¬ ∀ (layout : FeatureTable → Layout) (run : List Event),
    (∀ t, (layout t).Placed) → ∀ t x,
      Accounted (cutoff october (fun _ => none) t) (layout t)
        ((after october 0 (fun _ => none) (start true layout) run).layout t)
        ((committed october 0 (fun _ => none) (start true layout) run).count (t, x)) x := by
  intro h
  have hlost := (h parkedRow busyPass parkedRow_placed .short (octoberRow 2)).2 (by decide)
  revert hlost
  decide

end FeaturePartitions

end OpenBridge.Analytics
