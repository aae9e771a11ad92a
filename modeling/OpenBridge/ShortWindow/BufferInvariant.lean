import OpenBridge.ShortWindow.BufferContents

/-!
# Short windows: the representation of the buffer

The pieces of the keyed state describe one set of buffered samples.
-/

namespace OpenBridge.ShortWindow

open OpenBridge.Foundation

variable {π : Type} {f : ShortFeatureBufferFn π} {bs : List BufferedSample}
  {fingerprint : π → String} {maxSamplesPerLoop wm : ℤ}

/-! ## The registry -/

theorem get?_detachAndRemember {entries : ShortProfileRegistry π} {k : String} {e : ProfileEntry π}
    (h : entries.get? k = some e) (profile : Option π) (minute : ℤ) :
    ∃ e', (entries.detachAndRemember fingerprint profile minute).1.get? k = some e' ∧
      e.lastMinute ≤ e'.lastMinute := by
  unfold ShortProfileRegistry.detachAndRemember
  split
  · exact ⟨e, h, le_refl _⟩
  · rename_i p
    dsimp only
    split
    · rename_i hnone
      have hne : k ≠ fingerprint p := by
        rintro rfl
        rw [h] at hnone
        cases hnone
      exact ⟨e, by rw [Dict.get?_set_of_ne _ _ hne, h], le_refl _⟩
    · rename_i e₀ hsome
      split
      · rename_i hlt
        by_cases hk : k = fingerprint p
        · subst hk
          obtain rfl : e₀ = e := Option.some.inj (hsome.symm.trans h)
          exact ⟨_, Dict.get?_set_self _ _ _, le_of_lt hlt⟩
        · exact ⟨e, by rw [Dict.get?_set_of_ne _ _ hk, h], le_refl _⟩
      · exact ⟨e, h, le_refl _⟩

theorem get?_key_detachAndRemember {entries : ShortProfileRegistry π} {profile : Option π}
    {minute : ℤ} {k : String}
    (h : (entries.detachAndRemember fingerprint profile minute).2 = some k) :
    ∃ e, (entries.detachAndRemember fingerprint profile minute).1.get? k = some e ∧
      minute ≤ e.lastMinute := by
  unfold ShortProfileRegistry.detachAndRemember at h ⊢
  split at h
  · cases h
  · rename_i p
    dsimp only at h ⊢
    split at h
    · cases h
      exact ⟨_, Dict.get?_set_self _ _ _, le_refl _⟩
    · rename_i e₀ hsome
      rcases lt_or_ge e₀.lastMinute minute with hlt | hge
      · rw [if_pos hlt] at h ⊢
        cases h
        exact ⟨_, Dict.get?_set_self _ _ _, le_refl _⟩
      · rw [if_neg (not_lt.mpr hge)] at h ⊢
        cases h
        exact ⟨e₀, hsome, hge⟩

theorem exists_attach {entries : ShortProfileRegistry π} {range : List BufferedSample}
    (h : ∀ b ∈ range, ∀ k, b.profileKey = some k → (entries.get? k).isSome) :
    ∃ attached, entries.attach range = some attached ∧ attached.map Prod.fst = range := by
  unfold ShortProfileRegistry.attach
  induction range with
  | nil => exact ⟨[], rfl, rfl⟩
  | cons b rest ih =>
    obtain ⟨attached, hattached, hmap⟩ := ih fun b' hb' => h b' (List.mem_cons_of_mem _ hb')
    rw [List.mapM_cons, hattached]
    cases hkey : b.profileKey with
    | none => exact ⟨(b, none) :: attached, rfl, by rw [List.map_cons, hmap]⟩
    | some k =>
      obtain ⟨e, he⟩ := Option.isSome_iff_exists.mp (h b List.mem_cons_self k hkey)
      refine ⟨(b, some e.profile) :: attached, ?_, by rw [List.map_cons, hmap]⟩
      simp [he]

theorem Keeps.exists_attach_read (h : Keeps f bs) (start stop : ℤ) :
    ∃ attached, f.profiles.attach (f.read start stop) = some attached ∧
      attached.map Prod.fst = f.read start stop := by
  refine exists_attach fun b hb k hk => ?_
  rw [read_eq h.toBuffers] at hb
  obtain ⟨e, he, -⟩ := h.profiled b (List.mem_of_mem_filter hb) k hk
  rw [he]
  rfl

/-! ## Samples -/

theorem keeps_append (h : Keeps f bs) {x : TimedSample π} (hts : ∀ b ∈ bs, b.ts ≠ x.ts) {count : ℤ}
    (hcount : count = bs.length + 1) :
    Keeps (({ f with bufferCount := some count } : ShortFeatureBufferFn π).append fingerprint x
        (f.minuteIndex.get? (minuteOf x.ts))) (bs ++ [nextSample fingerprint f x]) where
  toBuffers := buffers_append (f := { f with bufferCount := some count }) fingerprint
    ⟨⟨h.ascending, h.next, h.samples, h.index⟩, h.minutesAscending, h.mem_minutes⟩ x
  counted := by
    rw [List.length_append, List.length_singleton]
    exact hcount.trans (by push_cast; rfl)
  distinct := by
    refine List.pairwise_append.mpr ⟨h.distinct, List.pairwise_singleton _ _, ?_⟩
    intro a ha b hb
    rw [List.mem_singleton.mp hb]
    exact hts a ha
  profiled b hb k hk := by
    rcases List.mem_append.mp hb with hb | hb
    · obtain ⟨e, he, hle⟩ := h.profiled b hb k hk
      obtain ⟨e', he', hle'⟩ :=
        @get?_detachAndRemember _ fingerprint _ _ _ he x.resolvedProfile (minuteOf x.ts)
      exact ⟨e', he', le_trans hle hle'⟩
    · rw [List.mem_singleton.mp hb] at hk ⊢
      exact get?_key_detachAndRemember hk

theorem holds_eq_true_iff (h : Stores f bs) {ts : ℤ} :
    ((f.minuteIndex.get? (minuteOf ts)).any fun seqs => f.holds seqs ts) = true ↔
      ∃ b ∈ bs, b.ts = ts := by
  constructor
  · intro hany
    by_contra hnone
    push Not at hnone
    rw [h.holds_eq_false hnone] at hany
    exact Bool.false_ne_true hany
  · rintro ⟨b, hb, rfl⟩
    have hmem : b.seq ∈ seqsOf bs (minuteOf b.ts) :=
      List.mem_map.mpr ⟨b, List.mem_filter.mpr ⟨hb, by simp⟩, rfl⟩
    rw [h.index, if_neg (List.ne_nil_of_mem hmem), Option.any_some, ShortFeatureBufferFn.holds,
      List.any_eq_true]
    exact ⟨b.seq, hmem, by rw [(h.samples _ _).mpr ⟨hb, rfl⟩]; simp⟩

/-- The buffer after a sample with a cap: as before when it is late for every window or a duplicate;
else whole earlier minutes are dropped until a place is free, and the sample is added if one is. -/
inductive CapStep (f : ShortFeatureBufferFn π) (bs : List BufferedSample) (cap wm : ℤ)
    (x : TimedSample π) : List BufferedSample → Prop
  | left (h : liveWindows wm x.ts = [] ∨ ∃ b ∈ bs, b.ts = x.ts) : CapStep f bs cap wm x bs
  | refused {dropped : List ℤ} (hsheds : Sheds f bs (minuteOf x.ts) (cap - 1) dropped)
      (hfull : cap ≤ (bs.filter fun b => minuteOf b.ts ∉ dropped).length)
      (holdest : ∀ b ∈ bs.filter fun b => minuteOf b.ts ∉ dropped, minuteOf x.ts ≤ minuteOf b.ts) :
      CapStep f bs cap wm x (bs.filter fun b => minuteOf b.ts ∉ dropped)
  | appended {dropped : List ℤ} {b : BufferedSample}
      (hsheds : Sheds f bs (minuteOf x.ts) (cap - 1) dropped)
      (hroom : (bs.filter fun b => minuteOf b.ts ∉ dropped).length + 1 ≤ cap)
      (hsample : b.ts = x.ts ∧ b.sample = x.sample) :
      CapStep f bs cap wm x ((bs.filter fun b => minuteOf b.ts ∉ dropped) ++ [b])

theorem processElement_spec (h : Keeps f bs) (x : TimedSample π) : ∃ bs',
    Keeps (f.processElement fingerprint maxSamplesPerLoop wm x).1 bs' ∧
      CapStep f bs (capFor x.sample.gridSeconds maxSamplesPerLoop) wm x bs' ∧
      (bs' ≠ [] → bs ≠ [] ∨
        (f.processElement fingerprint maxSamplesPerLoop wm x).2.2.isSome) := by
  unfold ShortFeatureBufferFn.processElement
  split
  · rename_i hlate
    exact ⟨bs, h, .left (.inl hlate), Or.inl⟩
  · dsimp only
    split
    · rename_i hheld
      exact ⟨bs, h, .left (.inr ((holds_eq_true_iff h.toStores).mp hheld)), Or.inl⟩
    · rename_i hnew
      rw [holds_eq_true_iff h.toStores] at hnew
      push Not at hnew
      obtain ⟨hcount, hkeeps⟩ := h.count
      -- the room that is made
      have hroom : ∃ dropped, ∃ room : ℤ × ShortFeatureBufferFn π,
          (if capFor x.sample.gridSeconds maxSamplesPerLoop ≤ f.count.1 then
            f.count.2.shrinkBefore (minuteOf x.ts)
              (capFor x.sample.gridSeconds maxSamplesPerLoop - 1) f.count.1
          else f.count) = room ∧
          Sheds f bs (minuteOf x.ts) (capFor x.sample.gridSeconds maxSamplesPerLoop - 1) dropped ∧
          Keeps room.2 (bs.filter fun b => minuteOf b.ts ∉ dropped) ∧
          room.1 = (bs.filter fun b => minuteOf b.ts ∉ dropped).length ∧
          (capFor x.sample.gridSeconds maxSamplesPerLoop ≤ room.1 →
            ∀ b ∈ bs.filter fun b => minuteOf b.ts ∉ dropped, minuteOf x.ts ≤ minuteOf b.ts) := by
        split
        · rw [hcount]
          obtain ⟨dropped, hsheds, hshrunk, hlength, hleast⟩ := shrinkBefore_spec hkeeps
            (minuteOf x.ts) (capFor x.sample.gridSeconds maxSamplesPerLoop - 1)
          refine ⟨dropped, _, rfl, ⟨?_, hsheds.earlier, hsheds.needed⟩, hshrunk, hlength,
            fun hfull => hleast (by omega)⟩
          rw [← count_minutes]
          exact hsheds.oldest
        · rename_i hfree
          refine ⟨[], _, rfl, ⟨List.nil_prefix, List.forall_mem_nil _, fun fewer d rest heq => by
            simp at heq⟩, ?_, ?_, fun hfull => absurd hfull hfree⟩
          · rw [filter_not_mem_nil]
            exact hkeeps
          · rw [filter_not_mem_nil]
            exact hcount
      obtain ⟨dropped, room, hroom, hsheds, hkept, hlength, hleast⟩ := hroom
      rw [hroom]
      split
      · rename_i hfull
        refine ⟨_, hkept, .refused hsheds (by omega) (hleast hfull), fun hne => Or.inl ?_⟩
        rintro rfl
        exact hne rfl
      · rename_i hfree
        have hindex : f.minuteIndex.get? (minuteOf x.ts) =
            room.2.minuteIndex.get? (minuteOf x.ts) := by
          have hown : minuteOf x.ts ∉ dropped := fun hmem =>
            absurd (hsheds.earlier _ hmem) (lt_irrefl _)
          have hseqs : seqsOf (bs.filter fun b => minuteOf b.ts ∉ dropped) (minuteOf x.ts) =
              seqsOf bs (minuteOf x.ts) := by
            rw [seqsOf, seqsOf, List.filter_filter]
            refine congrArg _ (List.filter_congr fun b hb => ?_)
            by_cases hb' : minuteOf b.ts = minuteOf x.ts
            · simp [hb', hown]
            · simp [hb']
          rw [h.index, hkept.index, hseqs]
        rw [hindex]
        refine ⟨_, keeps_append hkept (fun b hb => hnew b (List.mem_of_mem_filter hb)) ?_,
          .appended hsheds (by omega) ⟨rfl, rfl⟩, fun _ => Or.inr rfl⟩
        rw [hlength]

/-! ## Timers -/

theorem keeps_onTimer (h : Keeps f bs) (t : ℤ) : ∃ bs', Keeps (f.onTimer t).1 bs' ∧
    (bs' ≠ [] → (f.onTimer t).2.2.isSome) := by
  obtain ⟨kept, hkeeps, hleft, -⟩ := evict_spec h t
  refine ⟨bs.filter kept, hkeeps, fun hne => ?_⟩
  simp only [ShortFeatureBufferFn.onTimer, hleft.mpr hne, if_true, Option.isSome_some]

/-- The states of the operator between two callbacks of the platform. -/
inductive Reachable (fingerprint : π → String) (maxSamplesPerLoop : ℤ) : BufferOperator π → Prop
  | new : Reachable fingerprint maxSamplesPerLoop BufferOperator.new
  | sample {o : BufferOperator π} (x : TimedSample π) :
      Reachable fingerprint maxSamplesPerLoop o →
      Reachable fingerprint maxSamplesPerLoop
        (BufferOperator.step fingerprint maxSamplesPerLoop o (.sample x)).1
  | watermark {o : BufferOperator π} (w : ℤ) :
      Reachable fingerprint maxSamplesPerLoop o →
      Reachable fingerprint maxSamplesPerLoop { o with watermark := w }
  | timer {o : BufferOperator π} {t : ℤ} {rest : Timers} :
      Reachable fingerprint maxSamplesPerLoop o → o.timers.pop o.watermark = some (t, rest) →
      Reachable fingerprint maxSamplesPerLoop
        { o with
          fn := (o.fn.onTimer t).1
          timers := rest.registerNext (o.fn.onTimer t).2.2 }

theorem keeps_of_reachable {o : BufferOperator π} (h : Reachable fingerprint maxSamplesPerLoop o) :
    ∃ bs, Keeps o.fn bs ∧ (bs ≠ [] → o.timers.times ≠ []) := by
  induction h with
  | new => exact ⟨[], keeps_new, fun hne => absurd rfl hne⟩
  | @sample o x _ ih =>
    obtain ⟨bs, hkeeps, htimers⟩ := ih
    obtain ⟨bs', hkeeps', -, hstored⟩ :=
      @processElement_spec _ _ _ fingerprint maxSamplesPerLoop o.watermark hkeeps x
    refine ⟨bs', hkeeps', fun hne => ?_⟩
    dsimp only [BufferOperator.step]
    cases hnext : (o.fn.processElement fingerprint maxSamplesPerLoop o.watermark x).2.2 with
    | none =>
      rw [hnext] at hstored
      exact htimers ((hstored hne).resolve_right (by simp))
    | some t => exact List.ne_nil_of_mem (Timers.mem_register.mpr (Or.inl rfl))
  | watermark w _ ih => exact ih
  | @timer o t rest _ _ ih =>
    obtain ⟨bs, hkeeps, -⟩ := ih
    obtain ⟨bs', hkeeps', hnext⟩ := keeps_onTimer hkeeps t
    refine ⟨bs', hkeeps', fun hne => ?_⟩
    obtain ⟨u, hu⟩ := Option.isSome_iff_exists.mp (hnext hne)
    exact List.ne_nil_of_mem (Timers.mem_registerNext.mpr (Or.inl ⟨u, hu, rfl⟩))

/-! ## The pieces of the state -/

/-- The pieces of the keyed state describe one set of samples. -/
structure WellFormed (f : ShortFeatureBufferFn π) : Prop where
  minutesAscending : f.minutes.Pairwise (· < ·)
  mem_minutes : ∀ m, m ∈ f.minutes ↔ m ∈ f.minuteIndex.keys
  indexed : ∀ s, s ∈ f.samples.keys ↔ s ∈ f.minuteIndex.values.flatten
  once : f.minuteIndex.values.flatten.Nodup
  next : ∀ s ∈ f.samples.keys, s < f.nextSeq.getD 0
  minute : ∀ m seqs, f.minuteIndex.get? m = some seqs → ∀ s ∈ seqs,
    ∃ b, f.samples.get? s = some b ∧ b.seq = s ∧ minuteOf b.ts = m
  count : f.bufferCount.getD 0 = f.samples.keys.length
  timestamps : ∀ s s' b b', f.samples.get? s = some b → f.samples.get? s' = some b' →
    b.ts = b'.ts → s = s'
  profiles : ∀ s b k, f.samples.get? s = some b → b.profileKey = some k →
    ∃ e, f.profiles.get? k = some e ∧ minuteOf b.ts ≤ e.lastMinute

theorem mem_samples_keys (h : Stores f bs) (s : ℤ) :
    s ∈ f.samples.keys ↔ ∃ b ∈ bs, b.seq = s := by
  rw [Dict.mem_keys_iff_isSome, Option.isSome_iff_exists]
  constructor
  · rintro ⟨b, hb⟩
    exact ⟨b, (h.samples s b).mp hb⟩
  · rintro ⟨b, hb⟩
    exact ⟨b, (h.samples s b).mpr hb⟩

theorem mem_minuteIndex_entries (h : Stores f bs) {m : ℤ} {seqs : List ℤ} :
    (m, seqs) ∈ f.minuteIndex.entries ↔ seqs = seqsOf bs m ∧ seqs ≠ [] := by
  rw [← Dict.get?_eq_some_iff, h.index]
  split
  · rename_i hnil
    constructor
    · intro hnone
      cases hnone
    · rintro ⟨rfl, hne⟩
      exact absurd hnil hne
  · rename_i hne
    rw [Option.some.injEq]
    constructor
    · rintro rfl
      exact ⟨rfl, hne⟩
    · rintro ⟨rfl, -⟩
      rfl

theorem mem_seqsOf {m s : ℤ} : s ∈ seqsOf bs m ↔ ∃ b ∈ bs, minuteOf b.ts = m ∧ b.seq = s := by
  simp only [seqsOf, List.mem_map, List.mem_filter, decide_eq_true_eq, and_assoc]

theorem nodup_seqsOf (h : Stores f bs) (m : ℤ) : (seqsOf bs m).Nodup := by
  refine List.Nodup.map_on ?_ (h.nodup.filter _)
  intro a ha b hb heq
  exact h.eq_of_seq (List.mem_of_mem_filter ha) (List.mem_of_mem_filter hb) heq

theorem Keeps.wellFormed (h : Keeps f bs) : WellFormed f where
  minutesAscending := h.minutesAscending
  mem_minutes m := by
    rw [h.mem_minutes, Dict.mem_keys_iff_isSome, h.index]
    split
    · rename_i hnil
      rw [seqsOf_eq_nil_iff] at hnil
      exact iff_of_false (fun ⟨b, hb, heq⟩ => hnil b hb heq) (by simp)
    · rename_i hne
      rw [seqsOf_eq_nil_iff] at hne
      push Not at hne
      exact iff_of_true hne rfl
  indexed s := by
    rw [mem_samples_keys h.toStores, List.mem_flatten]
    constructor
    · rintro ⟨b, hb, rfl⟩
      have hmem : b.seq ∈ seqsOf bs (minuteOf b.ts) := mem_seqsOf.mpr ⟨b, hb, rfl, rfl⟩
      exact ⟨_, List.mem_map.mpr ⟨(minuteOf b.ts, seqsOf bs (minuteOf b.ts)),
        (mem_minuteIndex_entries h.toStores).mpr ⟨rfl, List.ne_nil_of_mem hmem⟩, rfl⟩, hmem⟩
    · rintro ⟨seqs, hseqs, hs⟩
      obtain ⟨⟨m, _⟩, hentry, rfl⟩ := List.mem_map.mp hseqs
      obtain ⟨rfl, -⟩ := (mem_minuteIndex_entries h.toStores).mp hentry
      obtain ⟨b, hb, -, hseq⟩ := mem_seqsOf.mp hs
      exact ⟨b, hb, hseq⟩
  once := by
    refine List.nodup_flatten.mpr ⟨fun seqs hseqs => ?_, ?_⟩
    · obtain ⟨⟨m, _⟩, hentry, rfl⟩ := List.mem_map.mp hseqs
      obtain ⟨rfl, -⟩ := (mem_minuteIndex_entries h.toStores).mp hentry
      exact nodup_seqsOf h.toStores m
    · -- two minutes have no sequence in common
      rw [Dict.values, List.pairwise_map]
      have hkeys : f.minuteIndex.entries.Pairwise fun e e' => e.1 ≠ e'.1 :=
        List.pairwise_map.mp f.minuteIndex.nodupKeys
      refine hkeys.imp_of_mem fun {e e'} he he' hne s hs hs' => hne ?_
      obtain ⟨hseqs, -⟩ := (mem_minuteIndex_entries h.toStores).mp he
      obtain ⟨hseqs', -⟩ := (mem_minuteIndex_entries h.toStores).mp he'
      rw [hseqs] at hs
      rw [hseqs'] at hs'
      obtain ⟨b, hb, hm, hseq⟩ := mem_seqsOf.mp hs
      obtain ⟨b', hb', hm', hseq'⟩ := mem_seqsOf.mp hs'
      obtain rfl := h.eq_of_seq hb hb' (hseq.trans hseq'.symm)
      exact hm.symm.trans hm'
  next s hs := by
    obtain ⟨b, hb, rfl⟩ := (mem_samples_keys h.toStores s).mp hs
    exact h.next b hb
  minute m seqs hseqs s hs := by
    obtain ⟨rfl, -⟩ := (mem_minuteIndex_entries h.toStores).mp (Dict.get?_eq_some_iff.mp hseqs)
    obtain ⟨b, hb, hm, rfl⟩ := mem_seqsOf.mp hs
    exact ⟨b, (h.samples _ b).mpr ⟨hb, rfl⟩, rfl, hm⟩
  count := by
    have hperm : f.samples.keys.Perm (bs.map (·.seq)) := by
      refine (List.perm_ext_iff_of_nodup f.samples.nodupKeys ?_).mpr fun s => ?_
      · refine List.Nodup.map_on ?_ h.nodup
        intro a ha b hb heq
        exact h.eq_of_seq ha hb heq
      · exact (mem_samples_keys h.toStores s).trans List.mem_map.symm
    rw [h.counted, hperm.length_eq, List.length_map]
  timestamps s s' b b' hs hs' hts := by
    obtain ⟨hb, rfl⟩ := (h.samples s b).mp hs
    obtain ⟨hb', rfl⟩ := (h.samples s' b').mp hs'
    have hnodup : (bs.map (·.ts)).Nodup := List.pairwise_map.mpr h.distinct
    rw [List.inj_on_of_nodup_map hnodup hb hb' hts]
  profiles s b k hs hk := h.profiled b ((h.samples s b).mp hs).1 k hk

/-- In every reachable state the pieces of the state describe one set of samples, no range of them
throws when its profiles are attached, and a timer is pending while a sample is buffered. -/
theorem reachable_wellFormed {o : BufferOperator π}
    (h : Reachable fingerprint maxSamplesPerLoop o) :
    WellFormed o.fn ∧
      (∀ start stop, (o.fn.profiles.attach (o.fn.read start stop)).isSome) ∧
      (o.fn.samples.keys ≠ [] → o.timers.times ≠ []) := by
  obtain ⟨bs, hkeeps, htimers⟩ := keeps_of_reachable h
  refine ⟨hkeeps.wellFormed, fun start stop => ?_, fun hne => htimers ?_⟩
  · obtain ⟨attached, hattached, -⟩ := hkeeps.exists_attach_read start stop
    rw [hattached]
    rfl
  · rintro rfl
    obtain ⟨s, hs⟩ := List.exists_mem_of_ne_nil _ hne
    obtain ⟨b, hb, -⟩ := (mem_samples_keys hkeeps.toStores s).mp hs
    exact List.not_mem_nil hb

def profiledSample (ts : ℤ) : TimedSample String := ⟨ts, {}, some "profile"⟩

theorem reachable_wellFormed_sample :
    let o := (BufferOperator.step id 0 BufferOperator.new (.sample (profiledSample 1000))).1
    WellFormed o.fn ∧
      (∀ start stop, (o.fn.profiles.attach (o.fn.read start stop)).isSome) ∧
      (o.fn.samples.keys ≠ [] → o.timers.times ≠ []) :=
  reachable_wellFormed (Reachable.new.sample (profiledSample 1000))

/-! ## The cap -/

theorem CapStep.length_le {cap : ℤ} {x : TimedSample π} {bs' : List BufferedSample}
    (h : CapStep f bs cap wm x bs') : (bs'.length : ℤ) ≤ max cap bs.length := by
  cases h with
  | left => exact le_max_right _ _
  | @refused dropped =>
    have hle := List.length_filter_le (fun b => decide (minuteOf b.ts ∉ dropped)) bs
    exact le_trans (by exact_mod_cast hle) (le_max_right _ _)
  | appended hsheds hroom hsample =>
    rw [List.length_append, List.length_singleton]
    exact le_trans (by exact_mod_cast hroom) (le_max_left _ _)

/-- In every reachable state the cap takes whole minutes, the oldest first and no more than needed, and
the sample itself only when no earlier minute is left. -/
theorem reachable_capStep {o : BufferOperator π} (h : Reachable fingerprint maxSamplesPerLoop o)
    (x : TimedSample π) : ∃ bs bs', Keeps o.fn bs ∧
      Keeps (o.fn.processElement fingerprint maxSamplesPerLoop o.watermark x).1 bs' ∧
      CapStep o.fn bs (capFor x.sample.gridSeconds maxSamplesPerLoop) o.watermark x bs' ∧
      (bs'.length : ℤ) ≤ max (capFor x.sample.gridSeconds maxSamplesPerLoop) bs.length := by
  obtain ⟨bs, hkeeps, -⟩ := keeps_of_reachable h
  obtain ⟨bs', hkeeps', hstep, -⟩ :=
    @processElement_spec _ _ _ fingerprint maxSamplesPerLoop o.watermark hkeeps x
  exact ⟨bs, bs', hkeeps, hkeeps', hstep, hstep.length_le⟩

theorem reachable_capStep_sample :
    let o := (BufferOperator.step id 1 BufferOperator.new (.sample (profiledSample 1000))).1
    let x := profiledSample 90000
    ∃ bs bs', Keeps o.fn bs ∧ Keeps (o.fn.processElement id 1 o.watermark x).1 bs' ∧
      CapStep o.fn bs (capFor x.sample.gridSeconds 1) o.watermark x bs' ∧
      (bs'.length : ℤ) ≤ max (capFor x.sample.gridSeconds 1) bs.length :=
  reachable_capStep (Reachable.new.sample (profiledSample 1000)) (profiledSample 90000)

end OpenBridge.ShortWindow
