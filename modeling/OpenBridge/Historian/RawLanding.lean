import OpenBridge.Historian.RawLoopIotDbConsumer

/-!
# Historian: what becomes of a raw sample

An offset is stored when its flush was ruled on, so nothing below a stored offset is lost while no
exception throws unruled rows away.  A buffer of poison alone is never ruled on.
-/

namespace OpenBridge.Historian

open OpenBridge.Foundation

namespace RawLoopIotDbConsumer

/-! ## What a flush does -/

theorem mem_take_or_drop {α : Type} {x : α} {xs : List α} (n : ℕ) (h : x ∈ xs) :
    x ∈ xs.take n ∨ x ∈ xs.drop n := by
  rw [← List.mem_append, List.take_append_drop]
  exact h

theorem ruled_of_insertBisecting (db : Database) (device : String) (rows : List Row) (n : ℕ)
    (h : (insertBisecting db device rows n).serverDown = false) :
    ∀ row ∈ rows, row ∈ (insertBisecting db device rows n).landed ∨
      row ∈ (insertBisecting db device rows n).rejected := by
  fun_induction insertBisecting db device rows n with
  | case1 n => simp
  | case2 rows n hrows hok => exact fun row hrow => Or.inl hrow
  | case3 rows n hrows hdown => cases h
  | case4 rows n hrows hrejected hone => exact fun row hrow => Or.inr hrow
  | case5 rows n hrows hrejected hone mid left hleft ihleft => simp [left, hleft] at h
  | case6 rows n hrows hrejected hone mid left hleft right ihleft _ ihright =>
    intro row hrow
    have hleft : left.serverDown = false := Bool.eq_false_iff.mpr hleft
    rcases mem_take_or_drop mid hrow with hrow | hrow
    · exact (ihleft hleft row hrow).imp (List.mem_append_left _) (List.mem_append_left _)
    · exact (ihright h row hrow).imp (List.mem_append_right _) (List.mem_append_right _)

def rowsOf (entries : List (String × List Row)) : List Sample :=
  entries.flatMap fun e => e.2.map (e.1, ·)

theorem rows_eq (s : State) : s.rows = rowsOf s.pending.entries := rfl

@[simp] theorem rowsOf_cons (e : String × List Row) (rest : List (String × List Row)) :
    rowsOf (e :: rest) = e.2.map (e.1, ·) ++ rowsOf rest := rfl

theorem ruled_of_flush (db : Database) (entries : List (String × List Row)) (n : ℕ)
    (h : (flush db entries n).serverDown = false) :
    ∀ x ∈ rowsOf entries, x ∈ (flush db entries n).landed ∨ x ∈ (flush db entries n).rejected := by
  induction entries generalizing n with
  | nil => simp [rowsOf]
  | cons e rest ih =>
    obtain ⟨device, rows⟩ := e
    intro x hx
    unfold flush at h ⊢
    dsimp only at h ⊢
    split
    · rename_i hdown
      rw [if_pos hdown] at h
      cases h
    · rename_i hdown
      rw [if_neg hdown] at h
      have hup := Bool.eq_false_iff.mpr hdown
      rw [rowsOf_cons, List.mem_append] at hx
      rcases hx with hx | hx
      · obtain ⟨row, hrow, rfl⟩ := List.mem_map.mp hx
        refine (ruled_of_insertBisecting db device rows n hup row hrow).imp ?_ ?_
        · exact fun hl => List.mem_append_left _ (List.mem_map_of_mem hl)
        · exact fun hr => List.mem_append_left _ (List.mem_map_of_mem hr)
      · exact (ih _ h x hx).imp (List.mem_append_right _) (List.mem_append_right _)

def AcceptsOthers (poison : List Sample) (db : Database) : Prop :=
  ∀ n device rows, db n device rows =
    if ∃ row ∈ rows, (device, row) ∈ poison then .rejected else .ok

theorem insertBisecting_of_acceptsOthers {poison : List Sample} {db : Database}
    (hdb : AcceptsOthers poison db) (device : String) (rows : List Row) (n : ℕ) :
    (insertBisecting db device rows n).serverDown = false ∧
      (insertBisecting db device rows n).landed =
        rows.filter (fun row => (device, row) ∉ poison) ∧
      (insertBisecting db device rows n).rejected =
        rows.filter (fun row => (device, row) ∈ poison) := by
  fun_induction insertBisecting db device rows n with
  | case1 n => simp
  | case2 rows n hrows hok =>
    have hclean : ∀ row ∈ rows, (device, row) ∉ poison := by
      intro row hrow hpoison
      rw [hdb, if_pos ⟨row, hrow, hpoison⟩] at hok
      cases hok
    refine ⟨rfl, ?_, ?_⟩
    · rw [List.filter_eq_self.mpr]
      simpa using hclean
    · rw [List.filter_eq_nil_iff.mpr]
      simpa using hclean
  | case3 rows n hrows hdown =>
    rw [hdb] at hdown
    split at hdown <;> cases hdown
  | case4 rows n hrows hrejected hone =>
    obtain ⟨row, rfl⟩ : ∃ row, rows = [row] := List.length_eq_one_iff.mp (by
      have hpos := List.length_pos_iff.mpr hrows
      omega)
    have hpoison : (device, row) ∈ poison := by
      rw [hdb] at hrejected
      split at hrejected
      · rename_i h
        simpa using h
      · cases hrejected
    simp [hpoison]
  | case5 rows n hrows hrejected hone mid left hleft ihleft =>
    have hup := ihleft.1
    simp [left, hup] at hleft
  | case6 rows n hrows hrejected hone mid left hleft right ihleft _ ihright =>
    refine ⟨ihright.1, ?_, ?_⟩
    · rw [ihleft.2.1, ihright.2.1, ← List.filter_append, List.take_append_drop]
    · rw [ihleft.2.2, ihright.2.2, ← List.filter_append, List.take_append_drop]

theorem flush_of_acceptsOthers {poison : List Sample} {db : Database}
    (hdb : AcceptsOthers poison db) (entries : List (String × List Row)) (n : ℕ) :
    (flush db entries n).serverDown = false ∧
      (flush db entries n).landed = (rowsOf entries).filter (· ∉ poison) ∧
      (flush db entries n).rejected = (rowsOf entries).filter (· ∈ poison) := by
  induction entries generalizing n with
  | nil => simp [flush, rowsOf]
  | cons e rest ih =>
    obtain ⟨device, rows⟩ := e
    obtain ⟨hup, hlanded, hrejected⟩ := insertBisecting_of_acceptsOthers hdb device rows n
    obtain ⟨hup', hlanded', hrejected'⟩ := ih (insertBisecting db device rows n).next
    unfold flush
    dsimp only
    rw [hup, hlanded, hrejected, if_neg Bool.false_ne_true, hup', hlanded', hrejected',
      rowsOf_cons, List.filter_append, List.filter_append, List.filter_map, List.filter_map]
    exact ⟨rfl, rfl, rfl⟩

/-! ## The rows of the buffer -/

theorem mem_rows {s : State} {x : Sample} :
    x ∈ s.rows ↔ x.2 ∈ (s.pending.get? x.1).getD [] := by
  constructor
  · intro hx
    obtain ⟨e, he, hx⟩ := List.mem_flatMap.mp hx
    obtain ⟨row, hrow, rfl⟩ := List.mem_map.mp hx
    have hget : s.pending.get? e.1 = some e.2 := Dict.get?_eq_some_iff.mpr he
    rw [hget]
    exact hrow
  · intro hx
    cases hget : s.pending.get? x.1 with
    | none => simp [hget] at hx
    | some rows =>
      rw [hget] at hx
      exact List.mem_flatMap.mpr ⟨_, Dict.get?_eq_some_iff.mp hget, List.mem_map_of_mem hx⟩

theorem mem_rows_addRow {s t : State} {x : Sample} (h : t.pending = addRow s.pending x)
    {y : Sample} : y ∈ t.rows ↔ y ∈ s.rows ∨ y = x := by
  rw [mem_rows, mem_rows, h, addRow, Dict.get?_set]
  by_cases hdevice : y.1 = x.1
  · rw [if_pos hdevice, hdevice, Option.getD_some, List.mem_append, List.mem_singleton,
      Prod.ext_iff]
    simp [hdevice]
  · rw [if_neg hdevice]
    have hne : y ≠ x := fun hyx => hdevice (congrArg Prod.fst hyx)
    simp [hne]

@[simp] theorem rows_tick (s : State) (e : Iteration) : (s.tick e).rows = s.rows := rfl

/-! ## Nothing is lost below a stored offset -/

section Landing

variable (reader : Reader) (log : Log)

/-- Every record below the offsets was unparsable, was written, or was refused beside a row that
landed. -/
def RuledBelow (s : State) (offset : ℕ → ℕ) : Prop :=
  ∀ p o, o < offset p → ∀ x ∈ sampleOf reader (log p o), x ∈ s.written ∨ x ∈ s.refused

def LosesNothing (s : State) : Prop := RuledBelow reader log s s.stored

structure Bounded (s : State) : Prop where
  stored : ∀ p, s.stored p ≤ s.position p
  pending : ∀ o ∈ s.pendingOffsets, o.2 < s.position o.1

/-- A record that was read and not ruled on is in the buffer. -/
structure Kept (s : State) : Prop extends Bounded s where
  held : ∀ p o, o < s.position p → ∀ x ∈ sampleOf reader (log p o),
    x ∈ s.written ∨ x ∈ s.refused ∨ x ∈ s.rows
  landed : LosesNothing reader log s

structure Ruled (s : State) : Prop extends Bounded s where
  ruled : RuledBelow reader log s s.position

variable {reader log}

theorem Ruled.kept {s : State} (h : Ruled reader log s) : Kept reader log s where
  toBounded := h.toBounded
  held := fun p o ho x hx => (h.ruled p o ho x hx).imp_right Or.inl
  landed := fun p o ho => h.ruled p o (lt_of_lt_of_le ho (h.stored p))

theorem Kept.ruled {s : State} (h : Kept reader log s) (hrows : s.rows = []) :
    Ruled reader log s where
  toBounded := h.toBounded
  ruled := by
    intro p o ho x hx
    rcases h.held p o ho x hx with hw | hr | hrow
    · exact Or.inl hw
    · exact Or.inr hr
    · rw [hrows] at hrow
      cases hrow

theorem Ruled.caught {s : State} (h : Ruled reader log s) : Ruled reader log (caught s) where
  stored := h.stored
  pending := nofun
  ruled := h.ruled

theorem storeAll_le {stored position : ℕ → ℕ} {offsets : List (ℕ × ℕ)}
    (h : ∀ p, stored p ≤ position p) (ho : ∀ o ∈ offsets, o.2 < position o.1) (p : ℕ) :
    storeAll stored offsets p ≤ position p := by
  induction offsets generalizing stored with
  | nil => exact h p
  | cons o rest ih =>
    refine ih ?_ fun o' ho' => ho o' (List.mem_cons_of_mem _ ho')
    intro q
    dsimp only
    by_cases hq : q = o.1
    · rw [hq, Function.update_self]
      exact ho o List.mem_cons_self
    · rw [Function.update_of_ne hq]
      exact h q

theorem Ruled.store {s : State} (h : Ruled reader log s) {offsets : List (ℕ × ℕ)}
    (hsub : offsets ⊆ s.pendingOffsets) :
    Ruled reader log { s with stored := storeAll s.stored offsets } where
  stored := storeAll_le h.stored fun o ho => h.pending o (hsub ho)
  pending := h.pending
  ruled := h.ruled

theorem Ruled.storeOffsets {s : State} (h : Ruled reader log s) (fault : Option Fault) :
    (∀ t, storeOffsets s fault = .ok t → Ruled reader log t) ∧
      ∀ t, storeOffsets s fault = .error t → Ruled reader log t := by
  have hall := h.store (List.Subset.refl _)
  unfold RawLoopIotDbConsumer.storeOffsets
  split
  · rename_i k
    split
    · refine ⟨nofun, ?_⟩
      rintro t ht
      obtain rfl := Except.error.inj ht
      exact h.store (List.take_subset _ _)
    · refine ⟨?_, nofun⟩
      rintro t ht
      obtain rfl := Except.ok.inj ht
      exact hall
  · refine ⟨?_, nofun⟩
    rintro t ht
    obtain rfl := Except.ok.inj ht
    exact hall

theorem Kept.read {s t : State} (h : Kept reader log s) (p : ℕ)
    (hposition : t.position = Function.update s.position p (s.position p + 1))
    (hstored : t.stored = s.stored) (hwritten : t.written = s.written)
    (hrefused : t.refused = s.refused)
    (hoffsets : ∀ o ∈ t.pendingOffsets, o ∈ s.pendingOffsets ∨ o = (p, s.position p))
    (hrows : ∀ x ∈ s.rows, x ∈ t.rows)
    (hnew : ∀ x ∈ sampleOf reader (log p (s.position p)), x ∈ t.rows) : Kept reader log t := by
  have hgrows : ∀ q, s.position q ≤ t.position q := by
    intro q
    rw [hposition]
    by_cases hq : q = p
    · rw [hq, Function.update_self]
      exact Nat.le_succ _
    · rw [Function.update_of_ne hq]
  refine ⟨⟨?_, ?_⟩, ?_, ?_⟩
  · intro q
    rw [hstored]
    exact (h.stored q).trans (hgrows q)
  · intro o ho
    rcases hoffsets o ho with ho | rfl
    · exact lt_of_lt_of_le (h.pending o ho) (hgrows o.1)
    · rw [hposition, Function.update_self]
      exact Nat.lt_succ_self _
  · intro q o ho x hx
    rw [hwritten, hrefused]
    by_cases hread : o < s.position q
    · exact (h.held q o hread x hx).imp_right fun hr => hr.imp_right (hrows x)
    · -- this is the record that was read
      rw [hposition] at ho
      by_cases hq : q = p
      · subst hq
        rw [Function.update_self] at ho
        obtain rfl : o = s.position q := by omega
        exact Or.inr (Or.inr (hnew x hx))
      · rw [Function.update_of_ne hq] at ho
        exact absurd ho hread
  · intro q o ho x hx
    rw [hstored] at ho
    rw [hwritten, hrefused]
    exact h.landed q o ho x hx

theorem Kept.receive {s : State} (h : Kept reader log s) (c : Consumed) :
    (∀ t, receive reader log s c = .ok t → Kept reader log t) ∧
      ∀ t, receive reader log s c = .error t → Kept reader log t := by
  cases c with
  | nothing => exact ⟨fun t ht => Except.ok.inj ht ▸ h, nofun⟩
  | throws => exact ⟨nofun, fun t ht => Except.error.inj ht ▸ h⟩
  | record p =>
    have hskip (hnone : sampleOf reader (log p (s.position p)) = none) :
        Kept reader log { s with position := Function.update s.position p (s.position p + 1) } :=
      h.read p rfl rfl rfl rfl (fun o ho => Or.inl ho) (fun x hx => hx) (by simp [hnone])
    unfold RawLoopIotDbConsumer.receive
    dsimp only
    split
    · exact ⟨fun t ht => Except.ok.inj ht ▸ h, nofun⟩
    · split
      · rename_i hblank
        have hnone : sampleOf reader (log p (s.position p)) = none := if_pos hblank
        exact ⟨fun t ht => Except.ok.inj ht ▸ hskip hnone, nofun⟩
      · rename_i hblank
        have hsample : sampleOf reader (log p (s.position p)) = _ := if_neg hblank
        split
        · rename_i e hparse
          rw [hparse] at hsample
          exact ⟨nofun, fun t ht => Except.error.inj ht ▸ hskip hsample⟩
        · rename_i hparse
          rw [hparse] at hsample
          have hnone : sampleOf reader (log p (s.position p)) = none := hsample
          refine ⟨?_, nofun⟩
          intro t ht
          obtain rfl := Except.ok.inj ht
          exact h.read p rfl rfl rfl rfl (fun o ho => by simpa using ho) (fun x hx => hx)
            (by simp [hnone])
        · rename_i x hparse
          rw [hparse] at hsample
          have hsome : sampleOf reader (log p (s.position p)) = some x := hsample
          refine ⟨?_, nofun⟩
          intro t ht
          obtain rfl := Except.ok.inj ht
          refine h.read p rfl rfl rfl rfl (fun o ho => by simpa using ho) ?_ ?_
          · intro y hy
            exact (mem_rows_addRow rfl).mpr (Or.inl hy)
          · intro y hy
            have hyx : x = y := by simpa [hsome] using hy
            exact (mem_rows_addRow rfl).mpr (Or.inr hyx.symm)

theorem Kept.grow {s : State} (h : Kept reader log s) (f : Flush) :
    Kept reader log { s with
      written := f.landed ++ s.written
      refused := if f.landed = [] then s.refused else f.rejected ++ s.refused } := by
  have hrefused : ∀ x ∈ s.refused, x ∈ if f.landed = [] then s.refused
      else f.rejected ++ s.refused := by
    intro x hx
    split
    · exact hx
    · exact List.mem_append_right _ hx
  refine ⟨⟨h.stored, h.pending⟩, ?_, ?_⟩
  · intro p o ho x hx
    exact (h.held p o ho x hx).imp (List.mem_append_right _) fun hr => hr.imp_left (hrefused x)
  · intro p o ho x hx
    exact (h.landed p o ho x hx).imp (List.mem_append_right _) (hrefused x)

theorem Kept.rule {s : State} (h : Kept reader log s) {db : Database}
    (hup : (flush db s.pending.entries 0).serverDown = false)
    (hclear : ¬ ((flush db s.pending.entries 0).landed = [] ∧
      (flush db s.pending.entries 0).rejected ≠ [])) :
    Ruled reader log { s with
      written := (flush db s.pending.entries 0).landed ++ s.written
      refused := if (flush db s.pending.entries 0).landed = [] then s.refused
        else (flush db s.pending.entries 0).rejected ++ s.refused } := by
  have hgrown := h.grow (flush db s.pending.entries 0)
  refine ⟨hgrown.toBounded, ?_⟩
  intro p o ho x hx
  rcases hgrown.held p o ho x hx with hw | hr | hrow
  · exact Or.inl hw
  · exact Or.inr hr
  · rcases ruled_of_flush db s.pending.entries 0 hup x hrow with hlanded | hrejected
    · exact Or.inl (List.mem_append_left _ hlanded)
    · have hlanded : (flush db s.pending.entries 0).landed ≠ [] :=
        fun hnil => hclear ⟨hnil, List.ne_nil_of_mem hrejected⟩
      refine Or.inr ?_
      dsimp only
      rw [if_neg hlanded]
      exact List.mem_append_left _ hrejected

theorem Kept.ruleOn {s : State} (h : Kept reader log s) (db : Database) (fault : Option Fault) :
    (∀ t, ruleOn s fault (flush db s.pending.entries 0) = .ok t → Kept reader log t) ∧
      ∀ t, ruleOn s fault (flush db s.pending.entries 0) = .error t → Ruled reader log t ∨
        ((flush db s.pending.entries 0).infrastructureFault = true ∧ s.paused = false ∧
          fault = some .pause) := by
  have hgrown := h.grow (flush db s.pending.entries 0)
  unfold RawLoopIotDbConsumer.ruleOn
  dsimp only
  split
  · rename_i hfault
    split
    · rename_i hpause
      exact ⟨nofun, fun t ht => Or.inr ⟨hfault, Bool.eq_false_iff.mpr hpause.1, hpause.2⟩⟩
    · refine ⟨?_, nofun⟩
      intro t ht
      obtain rfl := Except.ok.inj ht
      exact ⟨⟨hgrown.stored, hgrown.pending⟩, hgrown.held, hgrown.landed⟩
  · rename_i hfault
    split
    · refine ⟨?_, nofun⟩
      intro t ht
      obtain rfl := Except.ok.inj ht
      exact ⟨⟨hgrown.stored, hgrown.pending⟩, hgrown.held, hgrown.landed⟩
    · rename_i hclear
      have hup : (flush db s.pending.entries 0).serverDown = false := by
        simp only [Flush.infrastructureFault, decide_eq_true_eq, not_or] at hfault
        exact Bool.eq_false_iff.mpr hfault.1
      have hruled := h.rule hup hclear
      split
      · refine ⟨nofun, ?_⟩
        intro t ht
        obtain rfl := Except.error.inj ht
        exact Or.inl hruled
      · have hresumed : Ruled reader log { s with
            written := (flush db s.pending.entries 0).landed ++ s.written
            refused := if (flush db s.pending.entries 0).landed = [] then s.refused
              else (flush db s.pending.entries 0).rejected ++ s.refused
            paused := false } := ⟨⟨hruled.stored, hruled.pending⟩, hruled.ruled⟩
        obtain ⟨hok, herror⟩ := hresumed.storeOffsets fault
        unfold Except.map
        split
        · rename_i u hstores
          refine ⟨nofun, ?_⟩
          intro t ht
          obtain rfl := Except.error.inj ht
          exact Or.inl (herror u hstores)
        · rename_i u hstores
          refine ⟨?_, nofun⟩
          intro t ht
          obtain rfl := Except.ok.inj ht
          have hu := hok u hstores
          exact Ruled.kept ⟨⟨hu.stored, nofun⟩, hu.ruled⟩

theorem Kept.flushIfDue {s : State} (h : Kept reader log s) (e : Iteration) :
    (∀ t, flushIfDue s e = .ok t → Kept reader log t) ∧
      ∀ t, flushIfDue s e = .error t → Ruled reader log t ∨
        (s.flushDue = true ∧ (flush e.database s.pending.entries 0).infrastructureFault = true ∧
          s.paused = false ∧ e.fault = some .pause) := by
  unfold RawLoopIotDbConsumer.flushIfDue
  split
  · rename_i hempty
    obtain ⟨hok, herror⟩ := (h.ruled hempty.1).storeOffsets e.fault
    unfold Except.map
    split
    · rename_i u hstores
      refine ⟨nofun, ?_⟩
      intro t ht
      obtain rfl := Except.error.inj ht
      exact Or.inl (herror u hstores)
    · rename_i u hstores
      refine ⟨?_, nofun⟩
      intro t ht
      obtain rfl := Except.ok.inj ht
      have hu := hok u hstores
      exact Ruled.kept ⟨⟨hu.stored, nofun⟩, hu.ruled⟩
  · split
    · rename_i hdue
      obtain ⟨hok, herror⟩ := h.ruleOn e.database e.fault
      refine ⟨hok, ?_⟩
      intro t ht
      exact (herror t ht).imp_right fun hpause => ⟨hdue, hpause⟩
    · exact ⟨fun t ht => Except.ok.inj ht ▸ h, nofun⟩

variable (reader log) in
/-- When an iteration does not throw unruled rows away, and a flush that may end in a pause meets a
row that the database takes. -/
structure Sound (poison : List Sample) (s : State) (e : Iteration) : Prop where
  consumed : ∀ t, receive reader log (s.tick e) e.consumed = .error t → t.rows = []
  pause : ∀ t, receive reader log (s.tick e) e.consumed = .ok t → t.flushDue = true →
    (flush e.database t.pending.entries 0).infrastructureFault = true → t.paused = false →
    e.fault ≠ some .pause
  ruling : ∀ t, receive reader log (s.tick e) e.consumed = .ok t → t.flushDue = true →
    (∃ x ∈ t.rows, x ∉ poison) ∨ (t.rows.length < MinRejectedForServerVerdict ∧
      ∀ n device rows, e.database n device rows ≠ .unavailable)

variable (reader log) in
def SoundEvent (poison : List Sample) (s : State) : Event → Prop
  | .iteration e => Sound reader log poison s e
  | .restart _ => True

theorem Kept.step {poison : List Sample} {s : State} (h : Kept reader log s) (e : Event)
    (hsound : SoundEvent reader log poison s e) : Kept reader log (step reader log s e).1 := by
  cases e with
  | restart committed =>
    have hbound : ∀ p, min (committed p) (s.stored p) ≤ s.stored p := fun p => min_le_right _ _
    refine ⟨⟨fun p => le_rfl, nofun⟩, ?_, ?_⟩
    · intro p o ho x hx
      exact (h.landed p o (lt_of_lt_of_le ho (hbound p)) x hx).imp_right Or.inl
    · intro p o ho x hx
      exact h.landed p o (lt_of_lt_of_le ho (hbound p)) x hx
  | iteration e =>
    have htick : Kept reader log (s.tick e) := ⟨⟨h.stored, h.pending⟩, h.held, h.landed⟩
    obtain ⟨hok, herror⟩ := htick.receive e.consumed
    unfold RawLoopIotDbConsumer.step iterate body
    dsimp only
    cases hreceive : RawLoopIotDbConsumer.receive reader log (s.tick e) e.consumed with
    | error t => exact ((herror t hreceive).ruled (hsound.consumed t hreceive)).caught.kept
    | ok t =>
      obtain ⟨hok', herror'⟩ := (hok t hreceive).flushIfDue e
      rw [Except.bind]
      split
      · rename_i u hflush
        exact hok' u hflush
      · rename_i u hflush
        rcases herror' u hflush with hruled | ⟨hdue, hfault, hrunning, hpause⟩
        · exact hruled.caught.kept
        · exact absurd hpause (hsound.pause t hreceive hdue hfault hrunning)

theorem kept_start : Kept reader log start := ⟨⟨fun _ => le_rfl, nofun⟩, nofun, nofun⟩

end Landing

/-! ## A pause ends -/

theorem rejected_insertBisecting_sublist (db : Database) (device : String) (rows : List Row)
    (n : ℕ) : (insertBisecting db device rows n).rejected.Sublist rows := by
  fun_induction insertBisecting db device rows n with
  | case1 n => exact List.Sublist.slnil
  | case2 rows n hrows hok => exact List.nil_sublist _
  | case3 rows n hrows hdown => exact List.nil_sublist _
  | case4 rows n hrows hrejected hone => exact List.Sublist.refl _
  | case5 rows n hrows hrejected hone mid left hleft ihleft =>
    exact ihleft.trans (List.take_sublist _ _)
  | case6 rows n hrows hrejected hone mid left hleft right ihleft _ ihright =>
    have happend := ihleft.append ihright
    rwa [List.take_append_drop] at happend

theorem rejected_flush_sublist (db : Database) (entries : List (String × List Row)) (n : ℕ) :
    (flush db entries n).rejected.Sublist (rowsOf entries) := by
  induction entries generalizing n with
  | nil => exact List.Sublist.slnil
  | cons e rest ih =>
    obtain ⟨device, rows⟩ := e
    have hdevice := (rejected_insertBisecting_sublist db device rows n).map (device, ·)
    unfold flush
    dsimp only
    rw [rowsOf_cons]
    split
    · exact hdevice.trans (List.sublist_append_left _ _)
    · exact hdevice.append (ih _)

theorem insertBisecting_up {db : Database} (hdb : ∀ n device rows, db n device rows ≠ .unavailable)
    (device : String) (rows : List Row) (n : ℕ) :
    (insertBisecting db device rows n).serverDown = false := by
  fun_induction insertBisecting db device rows n with
  | case1 n => rfl
  | case2 rows n hrows hok => rfl
  | case3 rows n hrows hdown => exact absurd hdown (hdb _ _ _)
  | case4 rows n hrows hrejected hone => rfl
  | case5 rows n hrows hrejected hone mid left hleft ihleft => exact ihleft
  | case6 rows n hrows hrejected hone mid left hleft right ihleft _ ihright => exact ihright

theorem flush_up {db : Database} (hdb : ∀ n device rows, db n device rows ≠ .unavailable)
    (entries : List (String × List Row)) (n : ℕ) : (flush db entries n).serverDown = false := by
  induction entries generalizing n with
  | nil => rfl
  | cons e rest ih =>
    unfold flush
    dsimp only
    rw [if_neg (Bool.eq_false_iff.mp (insertBisecting_up hdb _ _ _))]
    exact ih _

section Pauses

variable (reader : Reader) (log : Log) (poison : List Sample)

/-- An iteration in which nothing throws, time passes, and the database takes every batch without a
poison row. -/
structure Healthy (e : Iteration) : Prop where
  consumed : e.consumed ≠ .throws
  fault : e.fault = none
  elapsed : 0 < e.elapsed
  database : AcceptsOthers poison e.database

def afterIterations (s : State) (e : ℕ → Iteration) (n : ℕ) : State :=
  Machine.stateAfter (step reader log) s ((List.range n).map fun i => .iteration (e i))

/-- A paused consumer reads on at some time, once the database takes the other rows. -/
def Released (s : State) : Prop :=
  s.paused = true → ∀ e : ℕ → Iteration, (∀ n, Healthy poison (e n)) →
    ∃ n, (afterIterations reader log s e n).paused = false

/-- While the consumer is paused, its buffer has a row that the database takes. -/
def Waits (s : State) : Prop := s.paused = true → ∃ x ∈ s.rows, x ∉ poison

variable {reader log poison}

theorem afterIterations_succ (s : State) (e : ℕ → Iteration) (n : ℕ) :
    afterIterations reader log s e (n + 1) =
      afterIterations reader log (iterate reader log s (e 0)) (fun i => e (i + 1)) n := by
  unfold afterIterations
  rw [List.range_succ_eq_map, List.map_cons, List.map_map]
  rfl

theorem body_of_paused {s : State} (hpaused : s.paused = true) {e : Iteration}
    (he : e.consumed ≠ .throws) : body reader log s e = flushIfDue (s.tick e) e := by
  have hreceive : receive reader log (s.tick e) e.consumed = .ok (s.tick e) := by
    cases hc : e.consumed with
    | nothing => rfl
    | throws => exact absurd hc he
    | record p => exact if_pos hpaused
  rw [body, hreceive]
  rfl

theorem ruleOn_of_healthy {s : State} {e : Iteration} (he : Healthy poison e) :
    (flush e.database s.pending.entries 0).serverDown = false ∧
      ((flush e.database s.pending.entries 0).landed = [] ↔ ∀ x ∈ s.rows, x ∈ poison) ∧
      (flush e.database s.pending.entries 0).rejected = s.rows.filter (· ∈ poison) := by
  obtain ⟨hup, hlanded, hrejected⟩ := flush_of_acceptsOthers he.database s.pending.entries 0
  refine ⟨hup, ?_, hrejected⟩
  rw [hlanded, List.filter_eq_nil_iff, rows_eq]
  simp

theorem released_of_flush {s : State} {e : Iteration} (he : Healthy poison e)
    (hgood : ∃ x ∈ s.rows, x ∉ poison) :
    ∃ t, ruleOn s e.fault (flush e.database s.pending.entries 0) = .ok t ∧ t.paused = false := by
  obtain ⟨hup, hlanded, -⟩ := ruleOn_of_healthy (s := s) he
  have hlands : (flush e.database s.pending.entries 0).landed ≠ [] := by
    intro hnil
    obtain ⟨x, hx, hclean⟩ := hgood
    exact hclean (hlanded.mp hnil x hx)
  have hfault : (flush e.database s.pending.entries 0).infrastructureFault = false := by
    simp [Flush.infrastructureFault, hup, hlands]
  unfold ruleOn
  dsimp only
  rw [hfault, if_neg Bool.false_ne_true, if_neg fun h => hlands h.1, he.fault, if_neg (by simp)]
  exact ⟨_, rfl, rfl⟩

theorem flushIfDue_of_rows {s : State} (h : s.rows ≠ []) (e : Iteration) :
    flushIfDue s e = if s.flushDue then ruleOn s e.fault (flush e.database s.pending.entries 0)
      else .ok s := if_neg fun hempty => h hempty.1

theorem released_of_good {s : State} (hpaused : s.paused = true)
    (hgood : ∃ x ∈ s.rows, x ∉ poison) {e : ℕ → Iteration} (he : ∀ n, Healthy poison (e n)) :
    ∃ n, (afterIterations reader log s e n).paused = false := by
  -- by the time that is left until the flush is due
  obtain ⟨left, hleft⟩ : ∃ left, s.lastFlush + FlushInterval ≤ s.clock + left :=
    ⟨s.lastFlush + FlushInterval, Nat.le_add_left _ _⟩
  induction left generalizing s e with
  | zero =>
    have hrows : (s.tick (e 0)).rows ≠ [] := List.ne_nil_of_mem hgood.choose_spec.1
    have hdue : (s.tick (e 0)).flushDue = true := by
      have hclock : s.lastFlush + FlushInterval ≤ s.clock + (e 0).elapsed := by omega
      exact decide_eq_true ⟨hrows, Or.inr hclock⟩
    have hgood : ∃ x ∈ (s.tick (e 0)).rows, x ∉ poison := hgood
    obtain ⟨t, ht, hrunning⟩ := released_of_flush (he 0) hgood
    refine ⟨1, ?_⟩
    have hbody : body reader log s (e 0) = .ok t := by
      rw [body_of_paused hpaused (he 0).consumed, flushIfDue_of_rows hrows, if_pos hdue, ht]
    rw [afterIterations_succ, iterate, hbody]
    exact hrunning
  | succ left ih =>
    have hrows : (s.tick (e 0)).rows ≠ [] := List.ne_nil_of_mem hgood.choose_spec.1
    have hbody : body reader log s (e 0) = flushIfDue (s.tick (e 0)) (e 0) :=
      body_of_paused hpaused (he 0).consumed
    rw [flushIfDue_of_rows hrows] at hbody
    by_cases hdue : (s.tick (e 0)).flushDue = true
    · have hgood : ∃ x ∈ (s.tick (e 0)).rows, x ∉ poison := hgood
      obtain ⟨t, ht, hrunning⟩ := released_of_flush (he 0) hgood
      rw [if_pos hdue, ht] at hbody
      refine ⟨1, ?_⟩
      rw [afterIterations_succ, iterate, hbody]
      exact hrunning
    · rw [if_neg hdue] at hbody
      have hpositive := (he 0).elapsed
      have hless : (s.tick (e 0)).lastFlush + FlushInterval ≤ (s.tick (e 0)).clock + left := by
        change s.lastFlush + FlushInterval ≤ s.clock + (e 0).elapsed + left
        omega
      have hstill : (s.tick (e 0)).paused = true := hpaused
      obtain ⟨n, hn⟩ := ih hstill hgood (fun i => he (i + 1)) hless
      refine ⟨n + 1, ?_⟩
      rw [afterIterations_succ, iterate, hbody]
      exact hn

theorem stuck_iterate {s : State} (hpaused : s.paused = true) (hrows : s.rows ≠ [])
    (hpoison : ∀ x ∈ s.rows, x ∈ poison) {e : Iteration} (he : Healthy poison e) :
    (iterate reader log s e).paused = true ∧ (iterate reader log s e).rows = s.rows := by
  have hbody : body reader log s e = flushIfDue (s.tick e) e := body_of_paused hpaused he.consumed
  have hheld : (s.tick e).rows ≠ [] := hrows
  rw [flushIfDue_of_rows hheld] at hbody
  obtain ⟨hup, hlanded, hrejected⟩ := ruleOn_of_healthy (s := s.tick e) he
  have hnone := hlanded.mpr hpoison
  have hsome : (flush e.database (s.tick e).pending.entries 0).rejected ≠ [] := by
    rw [hrejected, List.filter_eq_self.mpr (by simpa using hpoison)]
    exact hrows
  rw [iterate, hbody]
  split
  · rename_i t ht
    split at ht
    · unfold ruleOn at ht
      dsimp only at ht
      split at ht
      · rw [if_neg (by simp [he.fault])] at ht
        obtain rfl := Except.ok.inj ht
        exact ⟨rfl, rfl⟩
      · rw [if_pos ⟨hnone, hsome⟩] at ht
        obtain rfl := Except.ok.inj ht
        exact ⟨hpaused, rfl⟩
    · obtain rfl := Except.ok.inj ht
      exact ⟨hpaused, rfl⟩
  · rename_i t ht
    split at ht
    · unfold ruleOn at ht
      dsimp only at ht
      split at ht
      · rw [if_neg (by simp [he.fault])] at ht
        cases ht
      · rw [if_pos ⟨hnone, hsome⟩] at ht
        cases ht
    · cases ht

theorem stuck {s : State} (hpaused : s.paused = true) (hrows : s.rows ≠ [])
    (hpoison : ∀ x ∈ s.rows, x ∈ poison) {e : ℕ → Iteration} (he : ∀ n, Healthy poison (e n))
    (n : ℕ) : (afterIterations reader log s e n).paused = true := by
  induction n generalizing s e with
  | zero => exact hpaused
  | succ n ih =>
    obtain ⟨hstill, hsame⟩ : (iterate reader log s (e 0)).paused = true ∧
        (iterate reader log s (e 0)).rows = s.rows := stuck_iterate hpaused hrows hpoison (he 0)
    rw [afterIterations_succ]
    exact ih hstill (hsame ▸ hrows) (hsame ▸ hpoison) fun i => he (i + 1)

theorem released_iff {s : State} (hpaused : s.paused = true) (hrows : s.rows ≠ []) :
    Released reader log poison s ↔ ∃ x ∈ s.rows, x ∉ poison := by
  constructor
  · intro h
    by_contra hnone
    simp only [not_exists, not_and, not_not] at hnone
    -- the database answers as it should, a millisecond an iteration
    let e : Iteration :=
      { elapsed := 1, consumed := .nothing, fault := none,
        database := fun _ device rows =>
          if ∃ row ∈ rows, (device, row) ∈ poison then .rejected else .ok }
    have he : Healthy poison e := ⟨nofun, rfl, Nat.one_pos, fun _ _ _ => rfl⟩
    obtain ⟨n, hn⟩ := h hpaused (fun _ => e) fun _ => he
    rw [stuck hpaused hrows hnone (fun _ => he) n] at hn
    cases hn
  · intro hgood _ e he
    exact released_of_good hpaused hgood he

theorem paused_receive {s t : State} {c : Consumed} (h : receive reader log s c = .ok t)
    (hpaused : t.paused = true) : t = s := by
  cases c with
  | nothing => exact (Except.ok.inj h).symm
  | throws => cases h
  | record p =>
    unfold receive at h
    dsimp only at h
    split at h
    · exact (Except.ok.inj h).symm
    · -- the record of a partition that is not paused
      rename_i hrunning
      refine absurd ?_ hrunning
      split at h
      · obtain rfl := Except.ok.inj h
        exact hpaused
      · split at h
        · cases h
        · obtain rfl := Except.ok.inj h
          exact hpaused
        · obtain rfl := Except.ok.inj h
          exact hpaused

theorem storeOffsets_ok {s t : State} {fault : Option Fault} (h : storeOffsets s fault = .ok t) :
    t = { s with stored := storeAll s.stored s.pendingOffsets } := by
  unfold storeOffsets at h
  split at h
  · split at h
    · cases h
    · exact (Except.ok.inj h).symm
  · exact (Except.ok.inj h).symm

theorem waits_flushIfDue {s t : State} {e : Iteration} (h : Waits poison s)
    (hruling : s.flushDue = true → (∃ x ∈ s.rows, x ∉ poison) ∨
      (s.rows.length < MinRejectedForServerVerdict ∧
        ∀ n device rows, e.database n device rows ≠ .unavailable))
    (ht : flushIfDue s e = .ok t) : Waits poison t := by
  unfold flushIfDue Except.map at ht
  split at ht
  · split at ht
    · cases ht
    · rename_i u hstores
      obtain rfl := Except.ok.inj ht
      rw [storeOffsets_ok hstores]
      exact h
  · split at ht
    · rename_i hdue
      unfold ruleOn Except.map at ht
      dsimp only at ht
      split at ht
      · rename_i hfault
        split at ht
        · cases ht
        · obtain rfl := Except.ok.inj ht
          intro _
          rcases hruling hdue with hgood | ⟨hfew, hdb⟩
          · exact hgood
          · have hsub := (rejected_flush_sublist e.database s.pending.entries 0).length_le
            rw [← rows_eq] at hsub
            simp only [Flush.infrastructureFault, flush_up hdb, Bool.false_eq_true, false_or,
              decide_eq_true_eq] at hfault
            omega
      · split at ht
        · obtain rfl := Except.ok.inj ht
          exact h
        · split at ht
          · cases ht
          · split at ht
            · cases ht
            · rename_i u hstores
              obtain rfl := Except.ok.inj ht
              rw [storeOffsets_ok hstores]
              exact nofun
    · obtain rfl := Except.ok.inj ht
      exact h

theorem waits_step {s : State} (h : Waits poison s) (e : Event)
    (hsound : SoundEvent reader log poison s e) : Waits poison (step reader log s e).1 := by
  cases e with
  | restart committed => exact nofun
  | iteration e =>
    unfold step iterate
    dsimp only
    split
    · rename_i t hbody
      unfold body at hbody
      cases hreceive : receive reader log (s.tick e) e.consumed with
      | error u =>
        rw [hreceive] at hbody
        cases hbody
      | ok u =>
        rw [hreceive] at hbody
        have hwaits : Waits poison u := by
          intro hpaused
          have hsame := paused_receive hreceive hpaused
          subst hsame
          exact h hpaused
        exact waits_flushIfDue hwaits (hsound.ruling u hreceive) hbody
    · exact nofun

end Pauses

def sampleText (ts : String) : String :=
  "\x7b\"loop_id\":\"LIC\",\"event_ts_ms\":" ++ ts ++ ",\"mode\":\"AUTO\"\x7d"

def sampleJson (ts : ℤ) : Json :=
  .object [("loop_id", .text "LIC"), ("event_ts_ms", .number (.integral ts)),
    ("mode", .text "AUTO")]

def sampleAt (ts : ℤ) : Sample :=
  ("root.site1.cpm.LIC",
    { ts := ts, pv := none, sp := none, op := none, vp := none, mode := some "AUTO" })

def plainReader : Reader where
  parse s :=
    if s = sampleText "1000" then some (sampleJson 1000)
    else if s = sampleText "2000" then some (sampleJson 2000)
    else if s = "5" then some (.number (.integral 5))
    else none
  tryParseDouble _ := none
  isLetterOrDigit c := c.isAlphanum
  isDigit c := c.isDigit
  loopRootPrefix := "root.site1.cpm"

def mixedLog : Log := fun _ offset =>
  { key := none
    value := some (if offset = 0 then sampleText "1000" else if offset = 1 then "5"
      else sampleText "2000") }

def reads (elapsed : ℕ) (database : Database) : Event :=
  .iteration { elapsed := elapsed, consumed := .record 0, database := database, fault := none }

theorem receive_first : receive plainReader mixedLog start (.record 0) =
    .ok { start with position := Function.update (fun _ => 0) 0 1
                     pending := addRow Dict.empty (sampleAt 1000)
                     pendingOffsets := [(0, 0)] } := rfl

theorem sound_first (database : Database) :
    SoundEvent plainReader mixedLog [] start (reads 0 database) where
  consumed := fun t ht => by
    have hok : receive plainReader mixedLog start (.record 0) = .error t := ht
    rw [receive_first] at hok
    cases hok
  pause := fun t ht hdue hfault hrunning => nofun
  ruling := fun t ht hdue => by
    have hok : receive plainReader mixedLog start (.record 0) = .ok t := ht
    rw [receive_first] at hok
    obtain rfl := Except.ok.inj hok
    exact Or.inl ⟨sampleAt 1000, by decide, nofun⟩

end RawLoopIotDbConsumer

end OpenBridge.Historian
