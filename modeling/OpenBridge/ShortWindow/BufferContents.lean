import OpenBridge.ShortWindow.ShortFeatureBufferFn

/-!
# Short windows: what the buffer holds

The keyed state of a loop stands for the list of its buffered samples in arrival order.
-/

namespace OpenBridge.ShortWindow

open OpenBridge.Foundation

def seqsOf (bs : List BufferedSample) (m : ℤ) : List ℤ :=
  (bs.filter fun b => minuteOf b.ts = m).map (·.seq)

variable {π : Type}

/-- The samples and the index of the state are those of the list, in arrival order. -/
structure Stores (f : ShortFeatureBufferFn π) (bs : List BufferedSample) : Prop where
  ascending : bs.Pairwise fun a b => a.seq < b.seq
  next : ∀ b ∈ bs, b.seq < f.nextSeq.getD 0
  samples : ∀ s b, f.samples.get? s = some b ↔ b ∈ bs ∧ b.seq = s
  index : ∀ m, f.minuteIndex.get? m = if seqsOf bs m = [] then none else some (seqsOf bs m)

structure Buffers (f : ShortFeatureBufferFn π) (bs : List BufferedSample) : Prop
    extends Stores f bs where
  minutesAscending : f.minutes.Pairwise (· < ·)
  mem_minutes : ∀ m, m ∈ f.minutes ↔ ∃ b ∈ bs, minuteOf b.ts = m

/-- And the count, the timestamps and the profiles are those of the list. -/
structure Keeps (f : ShortFeatureBufferFn π) (bs : List BufferedSample) : Prop
    extends Buffers f bs where
  counted : f.bufferCount.getD 0 = bs.length
  distinct : bs.Pairwise fun a b => a.ts ≠ b.ts
  profiled : ∀ b ∈ bs, ∀ k, b.profileKey = some k →
    ∃ e, f.profiles.get? k = some e ∧ minuteOf b.ts ≤ e.lastMinute

variable {f : ShortFeatureBufferFn π} {bs : List BufferedSample} {b b' : BufferedSample}

theorem seqsOf_eq_nil_iff {m : ℤ} : seqsOf bs m = [] ↔ ∀ b ∈ bs, minuteOf b.ts ≠ m := by
  simp [seqsOf]

theorem buffers_new : Buffers (.new : ShortFeatureBufferFn π) [] where
  ascending := List.Pairwise.nil
  next := by simp
  samples := by simp [ShortFeatureBufferFn.new]
  index := by simp [ShortFeatureBufferFn.new, seqsOf]
  minutesAscending := List.Pairwise.nil
  mem_minutes := by simp [ShortFeatureBufferFn.new]

theorem keeps_new : Keeps (.new : ShortFeatureBufferFn π) [] where
  toBuffers := buffers_new
  counted := rfl
  distinct := List.Pairwise.nil
  profiled := by simp

namespace Stores

theorem nodup (h : Stores f bs) : bs.Nodup := by
  refine h.ascending.imp ?_
  rintro a b hlt rfl
  exact lt_irrefl _ hlt

theorem eq_of_seq (h : Stores f bs) (hb : b ∈ bs) (hb' : b' ∈ bs) (hseq : b.seq = b'.seq) :
    b = b' := by
  have hget := (h.samples b.seq b).mpr ⟨hb, rfl⟩
  rw [hseq, (h.samples b'.seq b').mpr ⟨hb', rfl⟩] at hget
  exact (Option.some.inj hget).symm

theorem getD_index (h : Stores f bs) (m : ℤ) : (f.minuteIndex.get? m).getD [] = seqsOf bs m := by
  rw [h.index]
  split
  · rename_i hnil
    rw [hnil, Option.getD_none]
  · rfl

theorem filterMap_index (h : Stores f bs) (m : ℤ) :
    ((f.minuteIndex.get? m).getD []).filterMap f.samples.get? =
      bs.filter fun b => minuteOf b.ts = m := by
  rw [h.getD_index, seqsOf, List.filterMap_map]
  have hsome : ∀ b ∈ bs.filter fun b => minuteOf b.ts = m,
      (f.samples.get? ∘ fun b => b.seq) b = some b := by
    intro b hb
    exact (h.samples b.seq b).mpr ⟨List.mem_of_mem_filter hb, rfl⟩
  rw [List.filterMap_congr hsome, List.filterMap_some]

theorem holds_eq_false (h : Stores f bs) {ts : ℤ} (hts : ∀ b ∈ bs, b.ts ≠ ts) (m : ℤ) :
    ((f.minuteIndex.get? m).any fun seqs => f.holds seqs ts) = false := by
  rw [h.index]
  split
  · rfl
  · rw [Option.any_some, ShortFeatureBufferFn.holds, List.any_eq_false]
    intro s _
    cases hget : f.samples.get? s with
    | none => simp
    | some b =>
      rw [Option.any_some, decide_eq_true_eq]
      exact hts b ((h.samples s b).mp hget).1

end Stores

theorem read_eq (h : Buffers f bs) (start stop : ℤ) :
    f.read start stop =
      bs.filter fun b => start < minuteOf b.ts + minuteMs ∧ minuteOf b.ts < stop := by
  have hminutes : ∀ m ∈ f.minutes.filter fun m => start < m + minuteMs ∧ m < stop,
      ((f.minuteIndex.get? m).getD []).filterMap f.samples.get? =
        bs.filter fun b => minuteOf b.ts = m := fun m _ => h.filterMap_index m
  rw [ShortFeatureBufferFn.read, List.flatMap_congr hminutes]
  have hperm : ((f.minutes.filter fun m => start < m + minuteMs ∧ m < stop).flatMap fun m =>
      bs.filter fun b => minuteOf b.ts = m).Perm
        (bs.filter fun b => start < minuteOf b.ts + minuteMs ∧ minuteOf b.ts < stop) := by
    refine (List.perm_ext_iff_of_nodup ?_ (h.nodup.filter _)).mpr fun b => ?_
    · refine List.nodup_flatMap.mpr ⟨fun m _ => h.nodup.filter _, ?_⟩
      refine (h.minutesAscending.filter _).imp fun {m m'} hlt b hb hb' => ?_
      have hm := of_decide_eq_true (List.mem_filter.mp hb).2
      have hm' := of_decide_eq_true (List.mem_filter.mp hb').2
      omega
    · simp only [List.mem_flatMap, List.mem_filter, decide_eq_true_eq]
      constructor
      · rintro ⟨m, ⟨-, hrange⟩, hb, rfl⟩
        exact ⟨hb, hrange⟩
      · rintro ⟨hb, hrange⟩
        exact ⟨minuteOf b.ts, ⟨(h.mem_minutes _).mpr ⟨b, hb, rfl⟩, hrange⟩, hb, rfl⟩
  -- both lists are ascending by the sequence, and a sequence stands for one sample
  refine @List.Perm.eq_of_pairwise _ (fun a b => a.seq ≤ b.seq) _ _ ?_ ?_ ?_
    ((List.mergeSort_perm _ _).trans hperm)
  · intro a b ha hb hab hba
    refine h.eq_of_seq ?_ (List.mem_of_mem_filter hb) (le_antisymm hab hba)
    exact List.mem_of_mem_filter (hperm.mem_iff.mp (List.mem_mergeSort.mp ha))
  · have hsorted := @List.pairwise_mergeSort _ (fun a b : BufferedSample => a.seq ≤ b.seq)
      (fun a b c hab hbc => by
        rw [decide_eq_true_eq] at hab hbc ⊢
        exact le_trans hab hbc)
      (fun a b => by
        rw [Bool.or_eq_true, decide_eq_true_eq, decide_eq_true_eq]
        exact le_total _ _)
      ((f.minutes.filter fun m => start < m + minuteMs ∧ m < stop).flatMap fun m =>
        bs.filter fun b => minuteOf b.ts = m)
    exact hsorted.imp fun hle => of_decide_eq_true hle
  · exact (h.ascending.imp fun hlt => le_of_lt hlt).filter _

/-! ## Storing -/

theorem addMinute_eq_concat {m : ℤ} {ms : List ℤ} {x : ℤ} (hlt : m < x) :
    ShortFeatureBufferFn.addMinute m (ms ++ [x]) = ShortFeatureBufferFn.addMinute m ms ++ [x] := by
  unfold ShortFeatureBufferFn.addMinute
  rw [List.rdropWhile_concat_pos _ _ _ (by simpa using hlt),
    List.rtakeWhile_concat_pos _ _ _ (by simpa using hlt), List.append_assoc, List.cons_append]

theorem addMinute_eq_end {m : ℤ} {ms : List ℤ} {x : ℤ} (hle : x ≤ m) :
    ShortFeatureBufferFn.addMinute m (ms ++ [x]) = ms ++ [x] ++ [m] := by
  unfold ShortFeatureBufferFn.addMinute
  rw [List.rdropWhile_concat_neg _ _ _ (by simpa using hle),
    List.rtakeWhile_concat_neg _ _ _ (by simpa using hle)]

theorem mem_addMinute {m x : ℤ} {ms : List ℤ} :
    x ∈ ShortFeatureBufferFn.addMinute m ms ↔ x = m ∨ x ∈ ms := by
  induction ms using List.reverseRecOn with
  | nil => simp [ShortFeatureBufferFn.addMinute]
  | append_singleton ms y ih =>
    rcases lt_or_ge m y with hlt | hge
    · rw [addMinute_eq_concat hlt, List.mem_append, ih, List.mem_append, or_assoc]
    · rw [addMinute_eq_end hge, List.mem_append, List.mem_singleton, or_comm]

theorem pairwise_addMinute {m : ℤ} {ms : List ℤ} (h : ms.Pairwise (· < ·)) (hm : m ∉ ms) :
    (ShortFeatureBufferFn.addMinute m ms).Pairwise (· < ·) := by
  induction ms using List.reverseRecOn with
  | nil => simp [ShortFeatureBufferFn.addMinute]
  | append_singleton ms y ih =>
    obtain ⟨hms, -, hlast⟩ := List.pairwise_append.mp h
    rw [List.mem_append, not_or, List.mem_singleton] at hm
    rcases lt_or_ge m y with hlt | hge
    · rw [addMinute_eq_concat hlt]
      refine List.pairwise_append.mpr ⟨ih hms hm.1, List.pairwise_singleton _ _, ?_⟩
      intro x hx z hz
      rw [List.mem_singleton.mp hz]
      rcases mem_addMinute.mp hx with rfl | hx
      · exact hlt
      · exact hlast x hx y (List.mem_singleton_self y)
    · rw [addMinute_eq_end hge]
      refine List.pairwise_append.mpr ⟨h, List.pairwise_singleton _ _, ?_⟩
      intro x hx z hz
      rw [List.mem_singleton.mp hz]
      have hy : y < m := lt_of_le_of_ne hge (Ne.symm hm.2)
      rcases List.mem_append.mp hx with hx | hx
      · exact lt_trans (hlast x hx y (List.mem_singleton_self y)) hy
      · rw [List.mem_singleton.mp hx]
        exact hy

def nextSample (fingerprint : π → String) (f : ShortFeatureBufferFn π) (x : TimedSample π) :
    BufferedSample :=
  ⟨f.nextSeq.getD 0, x.ts, x.sample,
    (f.profiles.detachAndRemember fingerprint x.resolvedProfile (minuteOf x.ts)).2⟩

theorem seqsOf_concat (bs : List BufferedSample) (b : BufferedSample) (m : ℤ) :
    seqsOf (bs ++ [b]) m = seqsOf bs m ++ if minuteOf b.ts = m then [b.seq] else [] := by
  rw [seqsOf, List.filter_append, List.map_append, seqsOf]
  split
  · rename_i h
    rw [List.filter_cons_of_pos (by simpa using h)]
    rfl
  · rename_i h
    rw [List.filter_cons_of_neg (by simpa using h)]
    rfl

theorem buffers_append (fingerprint : π → String) (h : Buffers f bs) (x : TimedSample π) :
    Buffers (f.append fingerprint x (f.minuteIndex.get? (minuteOf x.ts))) (bs ++ [nextSample fingerprint f x]) := by
  have hminutes : ∀ m, m ∈ (f.append fingerprint x (f.minuteIndex.get? (minuteOf x.ts))).minutes ↔
      m = minuteOf x.ts ∨ m ∈ f.minutes := by
    intro m
    simp only [ShortFeatureBufferFn.append]
    split
    · exact mem_addMinute
    · rename_i hsome
      rw [h.index] at hsome
      split at hsome
      · exact absurd rfl hsome
      · rename_i hne
        rw [seqsOf_eq_nil_iff] at hne
        push Not at hne
        refine ⟨Or.inr, ?_⟩
        rintro (rfl | hm)
        · exact (h.mem_minutes _).mpr hne
        · exact hm
  constructor
  · constructor
    · refine List.pairwise_append.mpr ⟨h.ascending, List.pairwise_singleton _ _, ?_⟩
      intro a ha b hb
      rw [List.mem_singleton.mp hb]
      exact h.next a ha
    · intro b hb
      have hnext : (f.append fingerprint x (f.minuteIndex.get? (minuteOf x.ts))).nextSeq.getD 0 =
          f.nextSeq.getD 0 + 1 := rfl
      rw [hnext]
      rcases List.mem_append.mp hb with hb | hb
      · have := h.next b hb
        omega
      · rw [List.mem_singleton.mp hb]
        exact Int.lt_succ _
    · intro s b
      simp only [ShortFeatureBufferFn.append, Dict.get?_set]
      split
      · rename_i hs
        subst hs
        rw [Option.some.injEq, List.mem_append, List.mem_singleton, nextSample]
        constructor
        · rintro rfl
          exact ⟨Or.inr rfl, rfl⟩
        · rintro ⟨hb | rfl, hseq⟩
          · have := h.next b hb
            omega
          · rfl
      · rename_i hs
        rw [h.samples, List.mem_append, List.mem_singleton]
        constructor
        · rintro ⟨hb, hseq⟩
          exact ⟨Or.inl hb, hseq⟩
        · rintro ⟨hb | rfl, hseq⟩
          · exact ⟨hb, hseq⟩
          · exact absurd hseq.symm hs
    · intro m
      simp only [ShortFeatureBufferFn.append, Dict.get?_set, h.getD_index, seqsOf_concat]
      split
      · rename_i hm
        subst hm
        rw [if_pos (show minuteOf (nextSample fingerprint f x).ts = minuteOf x.ts from rfl), if_neg (by simp)]
        rfl
      · rename_i hm
        rw [if_neg (show ¬ minuteOf (nextSample fingerprint f x).ts = m from fun heq => hm heq.symm),
          List.append_nil, h.index]
  · simp only [ShortFeatureBufferFn.append]
    split
    · rename_i hnone
      refine pairwise_addMinute h.minutesAscending fun hm => ?_
      rw [h.index] at hnone
      split at hnone
      · rename_i hnil
        obtain ⟨b, hb, heq⟩ := (h.mem_minutes _).mp hm
        exact seqsOf_eq_nil_iff.mp hnil b hb heq
      · cases hnone
    · exact h.minutesAscending
  · intro m
    rw [hminutes, h.mem_minutes]
    constructor
    · rintro (rfl | ⟨b, hb, heq⟩)
      · exact ⟨nextSample fingerprint f x, List.mem_append_right _ (List.mem_singleton_self _), rfl⟩
      · exact ⟨b, List.mem_append_left _ hb, heq⟩
    · rintro ⟨b, hb, heq⟩
      rcases List.mem_append.mp hb with hb | hb
      · exact Or.inr ⟨b, hb, heq⟩
      · rw [List.mem_singleton.mp hb] at heq
        exact Or.inl heq.symm

/-! ## Evicting -/

theorem get?_foldl_erase (d : Dict ℤ BufferedSample) (seqs : List ℤ) (s : ℤ) :
    (seqs.foldl Dict.erase d).get? s = if s ∈ seqs then none else d.get? s := by
  induction seqs generalizing d with
  | nil => simp
  | cons s' rest ih =>
    rw [List.foldl_cons, ih, Dict.get?_erase]
    by_cases hs : s = s'
    · simp [hs]
    · simp [hs]

theorem seqsOf_filter_ne (bs : List BufferedSample) (m m' : ℤ) :
    seqsOf (bs.filter fun b => minuteOf b.ts ≠ m) m' = if m' = m then [] else seqsOf bs m' := by
  rw [seqsOf, List.filter_filter]
  split
  · rename_i h
    subst h
    rw [List.map_eq_nil_iff, List.filter_eq_nil_iff]
    intro b _
    simp
  · rename_i h
    rw [seqsOf]
    congr 1
    refine List.filter_congr fun b _ => ?_
    by_cases hb : minuteOf b.ts = m'
    · simp [hb, h]
    · simp [hb]

theorem Stores.dropMinute (h : Stores f bs) (m : ℤ) :
    Stores (f.dropMinute m) (bs.filter fun b => minuteOf b.ts ≠ m) where
  ascending := h.ascending.filter _
  next b hb := h.next b (List.mem_of_mem_filter hb)
  samples s b := by
    simp only [ShortFeatureBufferFn.dropMinute, get?_foldl_erase, h.getD_index]
    rw [List.mem_filter, decide_eq_true_eq]
    split
    · rename_i hs
      obtain ⟨b', hb', rfl⟩ := List.mem_map.mp hs
      obtain ⟨hb', hm⟩ := List.mem_filter.mp hb'
      rw [decide_eq_true_eq] at hm
      refine iff_of_false (by simp) ?_
      rintro ⟨⟨hb, hne⟩, hseq⟩
      obtain rfl := h.eq_of_seq hb hb' hseq
      exact hne hm
    · rename_i hs
      rw [h.samples]
      constructor
      · rintro ⟨hb, rfl⟩
        refine ⟨⟨hb, fun hm => hs ?_⟩, rfl⟩
        exact List.mem_map.mpr ⟨b, List.mem_filter.mpr ⟨hb, by simpa using hm⟩, rfl⟩
      · rintro ⟨⟨hb, -⟩, hseq⟩
        exact ⟨hb, hseq⟩
  index m' := by
    simp only [ShortFeatureBufferFn.dropMinute, Dict.get?_erase, seqsOf_filter_ne]
    split
    · rw [if_pos rfl]
    · exact h.index m'

theorem length_filter_ne (bs : List BufferedSample) (m : ℤ) :
    ((bs.filter fun b => minuteOf b.ts ≠ m).length : ℤ) = bs.length - (seqsOf bs m).length := by
  have hsplit := List.length_eq_length_filter_add (l := bs) fun b => decide (minuteOf b.ts = m)
  have hne : (bs.filter fun b => !decide (minuteOf b.ts = m)) =
      bs.filter fun b => minuteOf b.ts ≠ m := by
    refine List.filter_congr fun b _ => ?_
    rw [decide_not]
  rw [hne] at hsplit
  rw [seqsOf, List.length_map]
  omega

theorem dropWhile_spec {p : ℤ → ℤ → Bool} (ms : List ℤ) (count : ℤ) (h : Stores f bs) :
    ∃ dropped, ms = dropped ++ (ShortFeatureBufferFn.dropWhile p ms count f).2.2 ∧
      (∀ m ∈ dropped, ∃ c, p c m = true) ∧
      Stores (ShortFeatureBufferFn.dropWhile p ms count f).1
        (bs.filter fun b => minuteOf b.ts ∉ dropped) ∧
      (ShortFeatureBufferFn.dropWhile p ms count f).2.1 =
        count - bs.length + (bs.filter fun b => minuteOf b.ts ∉ dropped).length ∧
      (dropped = [] → (ShortFeatureBufferFn.dropWhile p ms count f).1 = f) ∧
      (ShortFeatureBufferFn.dropWhile p ms count f).1.profiles = f.profiles := by
  induction ms generalizing count f bs with
  | nil =>
    have hall : bs.filter (fun b => minuteOf b.ts ∉ ([] : List ℤ)) = bs := by simp
    refine ⟨[], rfl, by simp, ?_, ?_, fun _ => rfl, rfl⟩
    · rw [hall]
      exact h
    · rw [hall, ShortFeatureBufferFn.dropWhile]
      dsimp only
      omega
  | cons m rest ih =>
    unfold ShortFeatureBufferFn.dropWhile
    split
    · rename_i hp
      obtain ⟨dropped, hms, hdropped, hstores, hcount, -, hprofiles⟩ :=
        ih (count - f.sizeOfMinute m) (h.dropMinute m)
      have heq : (bs.filter fun b => minuteOf b.ts ∉ m :: dropped) =
          (bs.filter fun b => minuteOf b.ts ≠ m).filter fun b => minuteOf b.ts ∉ dropped := by
        rw [List.filter_filter]
        refine List.filter_congr fun b _ => ?_
        rw [← Bool.decide_and, decide_eq_decide, List.mem_cons, not_or, and_comm]
      refine ⟨m :: dropped, by rw [List.cons_append, ← hms], ?_, ?_, ?_,
        fun hnil => absurd hnil (List.cons_ne_nil _ _), hprofiles⟩
      · intro m' hm'
        rcases List.mem_cons.mp hm' with rfl | hm'
        · exact ⟨count, hp⟩
        · exact hdropped m' hm'
      · rw [heq]
        exact hstores
      · rw [heq, hcount, ShortFeatureBufferFn.sizeOfMinute, h.getD_index, length_filter_ne]
        omega
    · have hall : bs.filter (fun b => minuteOf b.ts ∉ ([] : List ℤ)) = bs := by simp
      refine ⟨[], rfl, by simp, ?_, ?_, fun _ => rfl, rfl⟩
      · rw [hall]
        exact h
      · rw [hall]
        dsimp only
        omega

theorem Keeps.count (h : Keeps f bs) : f.count.1 = bs.length ∧ Keeps f.count.2 bs := by
  have hcounted := h.counted
  unfold ShortFeatureBufferFn.count
  cases hc : f.bufferCount with
  | some c =>
    rw [hc] at hcounted
    exact ⟨hcounted, h⟩
  | none =>
    rw [hc, Option.getD_none] at hcounted
    obtain rfl : bs = [] := List.length_eq_zero_iff.mp (by omega)
    have hminutes : f.minutes = [] := by
      refine List.eq_nil_iff_forall_not_mem.mpr fun m hm => ?_
      obtain ⟨b, hb, -⟩ := (h.mem_minutes m).mp hm
      exact List.not_mem_nil hb
    have hsize : f.bufferedSizeSlow = 0 := by rw [ShortFeatureBufferFn.bufferedSizeSlow, hminutes]; rfl
    simp only [hsize]
    exact ⟨rfl, h⟩

theorem count_minutes (f : ShortFeatureBufferFn π) : f.count.2.minutes = f.minutes := by
  unfold ShortFeatureBufferFn.count
  split
  · rfl
  · dsimp only
    split
    · rfl
    · rfl

section KeepFrom

variable {g : ShortFeatureBufferFn π} {left : List ℤ}

@[simp] theorem keepFrom_samples : (g.keepFrom left).samples = g.samples := by cases left <;> rfl

@[simp] theorem keepFrom_minuteIndex : (g.keepFrom left).minuteIndex = g.minuteIndex := by
  cases left <;> rfl

@[simp] theorem keepFrom_nextSeq : (g.keepFrom left).nextSeq = g.nextSeq := by cases left <;> rfl

@[simp] theorem keepFrom_minutes : (g.keepFrom left).minutes = left := by cases left <;> rfl

end KeepFrom

theorem get?_evictBefore {entries : ShortProfileRegistry π} {m : ℤ} {k : String}
    {e : ProfileEntry π} (hget : entries.get? k = some e) (hm : m ≤ e.lastMinute) :
    (entries.evictBefore m).get? k = some e := by
  have hkeys : ∀ (es : List (String × ProfileEntry π)) (d : ShortProfileRegistry π),
      (∀ x ∈ es, x.1 ≠ k) → (es.foldl (fun kept x => kept.erase x.1) d).get? k = d.get? k := by
    intro es
    induction es with
    | nil => exact fun _ _ => rfl
    | cons x rest ih =>
      intro d hne
      rw [List.foldl_cons, ih _ fun y hy => hne y (List.mem_cons_of_mem _ hy), Dict.get?_erase,
        if_neg fun h => hne x List.mem_cons_self h.symm]
  rw [ShortProfileRegistry.evictBefore, hkeys _ _ ?_, hget]
  rintro ⟨k', e'⟩ hx rfl
  obtain ⟨hmem, hlt⟩ := List.mem_filter.mp hx
  rw [Dict.get?_eq_some_iff.mpr hmem, Option.some.injEq] at hget
  subst hget
  exact absurd (of_decide_eq_true hlt) (not_lt.mpr hm)

theorem mem_left {dropped left : List ℤ} (h : Buffers f bs) (hminutes : f.minutes = dropped ++ left)
    (m : ℤ) : m ∈ left ↔ ∃ b ∈ bs.filter fun b => minuteOf b.ts ∉ dropped, minuteOf b.ts = m := by
  have hasc := h.minutesAscending
  rw [hminutes] at hasc
  have hapart := (List.pairwise_append.mp hasc).2.2
  have hmem := h.mem_minutes m
  rw [hminutes, List.mem_append] at hmem
  constructor
  · intro hm
    obtain ⟨b, hb, rfl⟩ := hmem.mp (Or.inr hm)
    refine ⟨b, List.mem_filter.mpr ⟨hb, ?_⟩, rfl⟩
    rw [decide_eq_true_eq]
    intro hdropped
    exact lt_irrefl _ (hapart _ hdropped _ hm)
  · rintro ⟨b, hb, rfl⟩
    obtain ⟨hb, hnot⟩ := List.mem_filter.mp hb
    exact (hmem.mpr ⟨b, hb, rfl⟩).resolve_left (of_decide_eq_true hnot)

theorem keeps_keepFrom {dropped left : List ℤ} {g : ShortFeatureBufferFn π} (h : Keeps f bs)
    (hminutes : f.minutes = dropped ++ left) (hleft : left ≠ [])
    (hg : Stores g (bs.filter fun b => minuteOf b.ts ∉ dropped))
    (hprofiles : g.profiles = f.profiles) {count : ℤ}
    (hcount : count = (bs.filter fun b => minuteOf b.ts ∉ dropped).length) :
    Keeps { g.keepFrom left with bufferCount := some count }
      (bs.filter fun b => minuteOf b.ts ∉ dropped) where
  ascending := hg.ascending
  next := by
    simp only [keepFrom_nextSeq]
    exact hg.next
  samples := by
    simp only [keepFrom_samples]
    exact hg.samples
  index := by
    simp only [keepFrom_minuteIndex]
    exact hg.index
  minutesAscending := by
    have hasc := h.minutesAscending
    rw [hminutes] at hasc
    simp only [keepFrom_minutes]
    exact (List.pairwise_append.mp hasc).2.1
  mem_minutes m := by
    simp only [keepFrom_minutes]
    exact mem_left h.toBuffers hminutes m
  counted := hcount
  distinct := h.distinct.filter _
  profiled b hb k hk := by
    obtain ⟨e, hget, hle⟩ := h.profiled b (List.mem_of_mem_filter hb) k hk
    obtain ⟨first, rest, rfl⟩ := List.exists_cons_of_ne_nil hleft
    have hasc := h.minutesAscending
    rw [hminutes] at hasc
    have hmem := (mem_left h.toBuffers hminutes _).mpr ⟨b, hb, rfl⟩
    have hfirst : first ≤ minuteOf b.ts := by
      rcases List.mem_cons.mp hmem with heq | hrest
      · exact le_of_eq heq.symm
      · exact le_of_lt ((List.pairwise_cons.mp (List.pairwise_append.mp hasc).2.1).1 _ hrest)
    refine ⟨e, ?_, hle⟩
    simp only [ShortFeatureBufferFn.keepFrom, hprofiles]
    exact get?_evictBefore hget (le_trans hfirst hle)

theorem keeps_keepFrom_nil {dropped : List ℤ} {g : ShortFeatureBufferFn π} (h : Keeps f bs)
    (hminutes : f.minutes = dropped)
    (hg : Stores g (bs.filter fun b => minuteOf b.ts ∉ dropped)) (next : Option ℤ) :
    (bs.filter fun b => minuteOf b.ts ∉ dropped) = [] ∧
      Keeps { g.keepFrom [] with nextSeq := next } [] := by
  have hnone : (bs.filter fun b => minuteOf b.ts ∉ dropped) = [] := by
    refine List.filter_eq_nil_iff.mpr fun b hb => ?_
    have hmem := (h.mem_minutes _).mpr ⟨b, hb, rfl⟩
    rw [hminutes] at hmem
    simpa using hmem
  rw [hnone] at hg
  exact ⟨hnone, ⟨⟨⟨List.Pairwise.nil, by simp, hg.samples, hg.index⟩, List.Pairwise.nil, by
    simp [ShortFeatureBufferFn.keepFrom]⟩, rfl, List.Pairwise.nil, by simp⟩⟩

theorem filter_ne_nil_of_left {dropped left : List ℤ} (h : Buffers f bs)
    (hminutes : f.minutes = dropped ++ left) (hleft : left ≠ []) :
    (bs.filter fun b => minuteOf b.ts ∉ dropped) ≠ [] := by
  obtain ⟨m, hm⟩ := List.exists_mem_of_ne_nil _ hleft
  obtain ⟨b, hb, -⟩ := (mem_left h hminutes m).mp hm
  exact List.ne_nil_of_mem hb

theorem filter_not_mem_nil (bs : List BufferedSample) :
    (bs.filter fun b => minuteOf b.ts ∉ ([] : List ℤ)) = bs := by simp

theorem evict_spec (h : Keeps f bs) (t : ℤ) : ∃ kept : BufferedSample → Bool,
    Keeps (f.evict t).1 (bs.filter kept) ∧
      ((f.evict t).2 = true ↔ bs.filter kept ≠ []) ∧
      ∀ b ∈ bs, t < ShortWindowSpecs.retainUntil (minuteOf b.ts + minuteMs - 1) →
        kept b = true := by
  unfold ShortFeatureBufferFn.evict
  split
  · rename_i hnil
    have hbs : bs = [] := by
      refine List.eq_nil_iff_forall_not_mem.mpr fun b hb => ?_
      have hmem := (h.mem_minutes _).mpr ⟨b, hb, rfl⟩
      rw [hnil] at hmem
      exact List.not_mem_nil hmem
    subst hbs
    exact ⟨fun _ => true, h, by simp, by simp⟩
  · obtain ⟨hcount, hkeeps⟩ := h.count
    obtain ⟨dropped, hminutes, hdropped, hstores, hleftCount, hsame, hprofiles⟩ := dropWhile_spec
      (p := fun _ minute => ShortWindowSpecs.retainUntil (minute + minuteMs - 1) ≤ t)
      f.minutes f.count.1 hkeeps.toStores
    dsimp only
    generalize ShortFeatureBufferFn.dropWhile
      (fun _ minute => ShortWindowSpecs.retainUntil (minute + minuteMs - 1) ≤ t) f.minutes
      f.count.1 f.count.2 = rest at hminutes hstores hleftCount hsame hprofiles
    rw [← count_minutes] at hminutes
    have hkept : ∀ b ∈ bs, t < ShortWindowSpecs.retainUntil (minuteOf b.ts + minuteMs - 1) →
        decide (minuteOf b.ts ∉ dropped) = true := by
      intro b _ hlt
      rw [decide_eq_true_eq]
      intro hmem
      obtain ⟨-, hle⟩ := hdropped _ hmem
      exact absurd (of_decide_eq_true hle) (not_le.mpr hlt)
    refine ⟨fun b => minuteOf b.ts ∉ dropped, ?_⟩
    split
    · rename_i hleft
      rw [hleft, List.append_nil] at hminutes
      obtain ⟨hnone, hempty⟩ := keeps_keepFrom_nil hkeeps hminutes hstores none
      rw [hnone]
      exact ⟨hempty, by simp, hkept⟩
    · rename_i hleft
      have hsome := filter_ne_nil_of_left hkeeps.toBuffers hminutes hleft
      split
      · rename_i hall
        rw [hall, count_minutes] at hminutes
        obtain rfl : dropped = [] := List.append_left_eq_self.mp hminutes.symm
        rw [hsame rfl, filter_not_mem_nil]
        rw [filter_not_mem_nil] at hsome
        exact ⟨hkeeps, iff_of_true rfl hsome, hkept⟩
      · refine ⟨keeps_keepFrom hkeeps hminutes hleft hstores hprofiles ?_,
          iff_of_true rfl hsome, hkept⟩
        omega

theorem dropWhile_greedy {p : ℤ → ℤ → Bool} (ms : List ℤ) {count : ℤ} (h : Stores f bs)
    (hcount : count = bs.length) {dropped : List ℤ}
    (hms : ms = dropped ++ (ShortFeatureBufferFn.dropWhile p ms count f).2.2) :
    (∀ fewer m rest, dropped = fewer ++ m :: rest →
      p (bs.filter fun b => minuteOf b.ts ∉ fewer).length m = true) ∧
    ∀ m rest, (ShortFeatureBufferFn.dropWhile p ms count f).2.2 = m :: rest →
      p (ShortFeatureBufferFn.dropWhile p ms count f).2.1 m = false := by
  induction ms generalizing count f bs dropped with
  | nil =>
    obtain ⟨rfl, -⟩ := List.append_eq_nil_iff.mp hms.symm
    exact ⟨fun fewer m rest heq => by simp at heq, fun m rest heq => by cases heq⟩
  | cons m rest ih =>
    rw [ShortFeatureBufferFn.dropWhile] at hms ⊢
    split
    · rename_i hp
      rw [if_pos hp] at hms
      have hnext : count - f.sizeOfMinute m = (bs.filter fun b => minuteOf b.ts ≠ m).length := by
        rw [hcount, ShortFeatureBufferFn.sizeOfMinute, h.getD_index, length_filter_ne]
      obtain ⟨dropped', hrest, -⟩ :=
        dropWhile_spec (p := p) rest (count - f.sizeOfMinute m) (h.dropMinute m)
      have hdropped : dropped = m :: dropped' :=
        (List.append_cancel_right ((congrArg (m :: ·) hrest).symm.trans hms)).symm
      obtain ⟨hneeded, hstop⟩ := ih (h.dropMinute m) hnext hrest
      refine ⟨fun fewer m' rest' heq => ?_, hstop⟩
      rw [hdropped] at heq
      rcases fewer with _ | ⟨first, fewer⟩
      · obtain ⟨rfl, -⟩ := List.cons.inj heq
        rw [filter_not_mem_nil, ← hcount]
        exact hp
      · rw [List.cons_append] at heq
        obtain ⟨rfl, htail⟩ := List.cons.inj heq
        have hsplit : (bs.filter fun b => minuteOf b.ts ∉ m :: fewer) =
            (bs.filter fun b => minuteOf b.ts ≠ m).filter fun b => minuteOf b.ts ∉ fewer := by
          rw [List.filter_filter]
          refine List.filter_congr fun b _ => ?_
          rw [← Bool.decide_and, decide_eq_decide, List.mem_cons, not_or, and_comm]
        rw [hsplit]
        exact hneeded fewer m' rest' htail
    · rename_i hp
      rw [if_neg hp] at hms
      obtain rfl : dropped = [] := List.append_left_eq_self.mp hms.symm
      refine ⟨fun fewer m' rest' heq => by simp at heq, fun m' rest' heq => ?_⟩
      obtain ⟨rfl, -⟩ := List.cons.inj heq
      exact Bool.eq_false_iff.mpr hp

/-- What shrinking to a target before a minute drops: whole minutes, the oldest first, all of them
earlier, and none while the target is met. -/
structure Sheds (f : ShortFeatureBufferFn π) (bs : List BufferedSample) (m target : ℤ)
    (dropped : List ℤ) : Prop where
  oldest : dropped <+: f.minutes
  earlier : ∀ d ∈ dropped, d < m
  needed : ∀ fewer d rest, dropped = fewer ++ d :: rest →
    target < (bs.filter fun b => minuteOf b.ts ∉ fewer).length

theorem shrinkBefore_spec (h : Keeps f bs) (m target : ℤ) : ∃ dropped,
    Sheds f bs m target dropped ∧
      Keeps (f.shrinkBefore m target bs.length).2 (bs.filter fun b => minuteOf b.ts ∉ dropped) ∧
      (f.shrinkBefore m target bs.length).1 =
        (bs.filter fun b => minuteOf b.ts ∉ dropped).length ∧
      (target < (bs.filter fun b => minuteOf b.ts ∉ dropped).length →
        ∀ b ∈ bs.filter fun b => minuteOf b.ts ∉ dropped, m ≤ minuteOf b.ts) := by
  obtain ⟨dropped, hminutes, hdropped, hstores, hleftCount, hsame, hprofiles⟩ := dropWhile_spec
    (p := fun count minute => target < count ∧ minute < m) f.minutes bs.length h.toStores
  obtain ⟨hneeded, hstop⟩ := dropWhile_greedy f.minutes h.toStores rfl hminutes
  unfold ShortFeatureBufferFn.shrinkBefore
  dsimp only
  generalize ShortFeatureBufferFn.dropWhile (fun count minute => target < count ∧ minute < m)
    f.minutes bs.length f = rest at hminutes hstores hleftCount hsame hprofiles hstop
  have hsheds : Sheds f bs m target dropped := by
    refine ⟨⟨rest.2.2, hminutes.symm⟩, fun d hd => ?_, fun fewer d rest heq => ?_⟩
    · obtain ⟨_, hlt⟩ := hdropped d hd
      exact (of_decide_eq_true hlt).2
    · exact (of_decide_eq_true (hneeded fewer d rest heq)).1
  have hleast : target < (bs.filter fun b => minuteOf b.ts ∉ dropped).length →
      ∀ b ∈ bs.filter fun b => minuteOf b.ts ∉ dropped, m ≤ minuteOf b.ts := by
    intro htarget b hb
    have hmem := (mem_left h.toBuffers hminutes _).mpr ⟨b, hb, rfl⟩
    obtain ⟨first, later, hleft⟩ := List.exists_cons_of_ne_nil (List.ne_nil_of_mem hmem)
    have hfirst : m ≤ first := by
      have hfalse := of_decide_eq_false (hstop first later hleft)
      rw [not_and, not_lt] at hfalse
      exact hfalse (by omega)
    have hasc := h.minutesAscending
    rw [hminutes, hleft] at hasc
    rw [hleft] at hmem
    rcases List.mem_cons.mp hmem with heq | hlater
    · exact le_of_le_of_eq hfirst heq.symm
    · exact le_trans hfirst
        (le_of_lt ((List.pairwise_cons.mp (List.pairwise_append.mp hasc).2.1).1 _ hlater))
  refine ⟨dropped, hsheds, ?_, by omega, hleast⟩
  split
  · rename_i hleft
    rw [hleft, List.append_nil] at hminutes
    split
    · rename_i hall
      rw [hleft] at hall
      obtain rfl : dropped = [] := by rw [← hminutes, hall]
      rw [hsame rfl, filter_not_mem_nil]
      exact h
    · obtain ⟨hnone, hempty⟩ := keeps_keepFrom_nil h hminutes hstores rest.1.nextSeq
      rw [hnone, hleft]
      exact hempty
  · rename_i hleft
    split
    · rename_i hall
      rw [hall] at hminutes
      obtain rfl : dropped = [] := List.append_left_eq_self.mp hminutes.symm
      rw [hsame rfl]
      rw [filter_not_mem_nil] at hleftCount ⊢
      refine ⟨⟨⟨h.ascending, h.next, h.samples, h.index⟩, h.minutesAscending, h.mem_minutes⟩,
        ?_, h.distinct, h.profiled⟩
      simp only [Option.getD_some]
      omega
    · refine keeps_keepFrom h hminutes hleft hstores hprofiles ?_
      omega

end OpenBridge.ShortWindow
