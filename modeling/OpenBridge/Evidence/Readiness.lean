import OpenBridge.Evidence.EvidenceBlobStore

/-!
# Evidence: readiness

What `COMPLETE` promises about the rows that are stored.
-/

namespace OpenBridge.Evidence

open OpenBridge.Foundation EvidenceBlobStore CplmEvidenceConsumerService

/-- The payloads of the chunk rows `0, …, n - 1`, one after another. -/
def joinedRows (chunks : Dict ℤ ChunkRow) (n : ℕ) : List UInt8 :=
  (List.range n).flatMap fun i : ℕ => ((chunks.get? i).map (·.payload)).getD []

structure Verified (m : EvidenceManifestSpec) (chunks : Dict ℤ ChunkRow) : Prop where
  numbers : ∀ no, (chunks.get? no).isSome ↔ 0 ≤ no ∧ no < m.chunkCount
  declared : ∀ no c, chunks.get? no = some c → equalsOrdinalIgnoreCase
    (EvidenceAssembly.sha256Hex c.payload) (m.chunkSha256.getD no.toNat "")
  joined : equalsOrdinalIgnoreCase
    (EvidenceAssembly.sha256Hex (joinedRows chunks m.chunkCount.toNat)) m.sha256

def Truthful (store : Option Dataset) : Prop :=
  ∀ d ∈ store, d.manifest.readiness = .complete → Verified d.manifest.declared d.chunks

/-- A chunk stored under a complete manifest has a number of its declaration, and a verdict
`COMPLETE` is written on the declaration and the chunks it was found for. -/
def Guarded (s : State) : Event → Prop
  | .chunk c => EvidenceAssembly.chunkIsSelfConsistent c → ∀ d ∈ s.store,
      d.manifest.readiness = .complete →
        0 ≤ c.chunkNo ∧ c.chunkNo < d.manifest.declared.chunkCount
  | .setReadiness k => ∀ m chunks, s.evaluations.get? k = some (.loaded m chunks) →
      (EvidenceAssembly.evaluate m chunks).readiness = .complete → ∀ d ∈ s.store,
        d.manifest.readiness ≠ .expired →
          d.manifest.declared = m ∧ EvidenceBlobStore.getChunks s.store = chunks
  | _ => True

theorem mem_getChunks {d : Dataset} {c : EvidenceChunkSpec} :
    c ∈ EvidenceBlobStore.getChunks (some d) ↔
      d.chunks.get? c.chunkNo = some ⟨c.sha256, c.payload⟩ := by
  simp only [EvidenceBlobStore.getChunks, List.mem_insertionSort, List.mem_map,
    Dict.get?_eq_some_iff]
  constructor
  · rintro ⟨e, he, rfl⟩
    exact he
  · intro h
    exact ⟨_, h, rfl⟩

theorem verified_of_evaluate {m : EvidenceManifestSpec} {d : Dataset}
    (h : (EvidenceAssembly.evaluate m (EvidenceBlobStore.getChunks (some d))).readiness =
      .complete) : Verified m d.chunks := by
  obtain ⟨-, -, byNo, hfold, hcount, -, hsha⟩ := EvidenceAssembly.evaluate_complete_iff.mp h
  have hplaced := EvidenceAssembly.placed_of_fold hfold
  have hstored : ∀ no, 0 ≤ no → no < m.chunkCount →
      ∃ c, byNo.get? no = some c ∧ d.chunks.get? no = some ⟨c.sha256, c.payload⟩ := by
    intro no hlow hhigh
    obtain ⟨c, hc⟩ := hplaced.count_le_iff.mp hcount no hlow hhigh
    obtain ⟨hmem, rfl, -⟩ := hplaced.fits no c hc
    exact ⟨c, hc, mem_getChunks.mp hmem⟩
  have hfirst : ∀ no row, d.chunks.get? no = some row → ∃ first : EvidenceChunkSpec,
      first.payload = row.payload ∧ first.chunkNo = no ∧ EvidenceAssembly.Fits m first := by
    intro no row hrow
    obtain ⟨first, hget, hpayload⟩ :=
      hplaced.covers ⟨no, row.sha256, row.payload⟩ (mem_getChunks.mpr hrow)
    obtain ⟨-, hno, hfits⟩ := hplaced.fits _ _ hget
    exact ⟨first, hpayload, hno, hfits⟩
  refine ⟨fun no => ⟨fun hno => ?_, fun ⟨hlow, hhigh⟩ => ?_⟩, fun no row hrow => ?_, ?_⟩
  · obtain ⟨row, hrow⟩ := Option.isSome_iff_exists.mp hno
    obtain ⟨first, -, rfl, hfits⟩ := hfirst no row hrow
    exact ⟨hfits.low, hfits.high⟩
  · obtain ⟨c, -, hc⟩ := hstored no hlow hhigh
    exact hc ▸ rfl
  · obtain ⟨first, hpayload, rfl, hfits⟩ := hfirst no row hrow
    rw [← hpayload]
    exact decide_eq_true (equalsOrdinalIgnoreCase_of_left hfits.consistent hfits.declared)
  · -- the same payloads are joined from the rows and from the chunks that were placed
    have hjoined : joinedRows d.chunks m.chunkCount.toNat =
        EvidenceAssembly.joined byNo m.chunkCount.toNat := by
      unfold joinedRows EvidenceAssembly.joined
      refine List.flatMap_congr fun i hi => ?_
      obtain ⟨c, hc, hrow⟩ := hstored i (by omega) (by have := List.mem_range.mp hi; omega)
      rw [hc, hrow]
      rfl
    rw [hjoined]
    exact hsha

/-! ## One transaction -/

theorem truthful_upsertManifest {store : Option Dataset} (m : IncomingManifest)
    (h : Truthful store) : Truthful (upsertManifest m store) := by
  intro d hd hcomplete
  unfold upsertManifest at hd
  dsimp only at hd
  split at hd
  · rw [← Option.some.inj hd] at hcomplete
    cases hcomplete
  · split at hd
    · rw [← Option.some.inj hd] at hcomplete
      cases hcomplete
    · exact h d hd hcomplete

theorem truthful_setReadiness {store : Option Dataset} {readiness : Readiness}
    {reason : Option String} (h : Truthful store)
    (hnew : ∀ d ∈ store, d.manifest.readiness ≠ .expired → readiness = .complete →
      Verified d.manifest.declared d.chunks) :
    Truthful (EvidenceBlobStore.setReadiness readiness reason store) := by
  intro d hd hcomplete
  obtain ⟨d, hmem, rfl⟩ := Option.mem_map.mp hd
  revert hcomplete
  split
  · exact h d hmem
  · rename_i hexpired
    exact hnew d hmem hexpired

theorem truthful_putChunk {store : Option Dataset} {c : EvidenceChunkSpec} (h : Truthful store)
    (hnumber : ∀ d ∈ store, d.manifest.readiness = .complete →
      0 ≤ c.chunkNo ∧ c.chunkNo < d.manifest.declared.chunkCount) :
    Truthful (putChunk c store) := by
  intro d hd hcomplete
  obtain ⟨d, hmem, rfl⟩ := Option.mem_map.mp hd
  revert hcomplete
  split
  · exact h d hmem
  · rename_i hcontains
    intro hcomplete
    -- a number of the declaration is taken
    have hstored := ((h d hmem hcomplete).numbers c.chunkNo).mpr (hnumber d hmem hcomplete)
    exact absurd hstored hcontains

theorem truthful_filter {store : Option Dataset} (p : Dataset → Bool) (h : Truthful store) :
    Truthful (store.filter p) := by
  intro d hd
  exact h d (Option.filter_eq_some_iff.mp hd).1

theorem truthful_expire {store : Option Dataset} (recordClass : RetentionClass)
    (h : Truthful store) : Truthful (EvidenceRetentionTiers.expire recordClass store) := by
  intro d hd hcomplete
  obtain ⟨d, hmem, rfl⟩ := Option.mem_map.mp hd
  revert hcomplete
  split
  · intro hcomplete
    cases hcomplete
  · exact h d hmem

theorem truthful_promote {store : Option Dataset} (h : Truthful store) :
    Truthful (EvidenceRetentionTiers.promote store) := by
  intro d hd hcomplete
  obtain ⟨d, hmem, rfl⟩ := Option.mem_map.mp hd
  revert hcomplete
  split
  · exact h d hmem
  · exact h d hmem

theorem truthful_pin {store : Option Dataset} (h : Truthful store) :
    Truthful (EvidenceRetentionTiers.pin store) := by
  intro d hd hcomplete
  obtain ⟨d, hmem, rfl⟩ := Option.mem_map.mp hd
  exact h d hmem hcomplete

theorem truthful_endEvaluation {s : State} {k : ℕ} (h : Truthful s.store)
    (hguard : Guarded s (.setReadiness k)) : Truthful (endEvaluation k s).store := by
  unfold endEvaluation
  split
  · rename_i m chunks hloaded
    dsimp only
    split
    · rename_i hverdict
      refine truthful_setReadiness h fun d hd hexpired _ => ?_
      obtain ⟨hm, hchunks⟩ := hguard m chunks hloaded hverdict d hd hexpired
      rw [Option.mem_def.mp hd] at hchunks
      rw [← hm, ← hchunks] at hverdict
      exact verified_of_evaluate hverdict
    · exact truthful_setReadiness h fun d hd hexpired hcomplete => by cases hcomplete
    · exact h
  · exact h

theorem truthful_step {s : State} {e : Event} (h : Truthful s.store) (hguard : Guarded s e) :
    Truthful (step s e).1.store := by
  cases e with
  | manifest m => exact truthful_upsertManifest m h
  | chunk c =>
    dsimp only [step, applyChunk]
    split
    · exact truthful_setReadiness h fun d hd hexpired hcomplete => by cases hcomplete
    · rename_i hconsistent
      exact truthful_putChunk h (hguard (not_not.mp hconsistent))
  | getManifest k =>
    dsimp only [step, beginEvaluation]
    split
    · split
      · exact h
      · exact h
    · exact h
  | countChunks k =>
    dsimp only [step, countEvaluation]
    split
    · split
      · exact h
      · exact h
    · exact h
  | getChunks k =>
    dsimp only [step, loadEvaluation]
    split
    · exact h
    · exact h
  | setReadiness k => exact truthful_endEvaluation h hguard
  | purgeTransient => exact truthful_filter _ h
  | expire recordClass => exact truthful_expire recordClass h
  | purgeExpired recordClass => exact truthful_filter _ h
  | promote => exact truthful_promote h
  | pin => exact truthful_pin h

/-! ## Runs -/

/-- In a run whose steps are all guarded, a complete row always has the chunks it declares. -/
theorem complete_is_verified (es : List Event)
    (h : Machine.Always step Guarded start es) (pre : List Event) (hpre : pre <+: es) :
    Truthful (after pre).store := by
  obtain ⟨post, rfl⟩ := hpre
  rw [Machine.always_append] at h
  have hrun := h.1
  clear h
  induction pre using List.reverseRecOn with
  | nil => intro d hd; cases hd
  | append_singleton pre e ih =>
    rw [Machine.always_concat] at hrun
    rw [after_concat]
    exact truthful_step (ih hrun.1) hrun.2

/-- `EvaluateAsync` without another transaction between its own. -/
def evaluation : List Event := [.getManifest 0, .countChunks 0, .getChunks 0, .setReadiness 0]

def liveManifest : IncomingManifest where
  spec :=
    { evidenceId := "7c0e", chunkCount := 2, totalBytes := 2
      sha256 := "a12871fee210fb8619291eaea194581cbd2531e4b23759d225f6806923f63222"
      chunkSha256 := [
        "4bf5122f344554c53bde2ebb8cd2b7e3d1600ad631c385a5d7cce23c7785459a",
        "dbc1b4c900ffe48d575b5da5c638040125f65db0fe3e24494b76ea986457d986"] }
  provenance := some ⟨none, some "LIVE"⟩

def lateChunk : EvidenceChunkSpec :=
  ⟨1, "dbc1b4c900ffe48d575b5da5c638040125f65db0fe3e24494b76ea986457d986", [2]⟩

def reconstructedManifest : IncomingManifest where
  spec :=
    { evidenceId := "7c0e", chunkCount := 1, totalBytes := 1
      sha256 := "084fed08b978af4d7d196a7446a86b58009e636b611db16211b65a9aadff29c5"
      chunkSha256 := ["084fed08b978af4d7d196a7446a86b58009e636b611db16211b65a9aadff29c5"] }
  provenance := some ⟨none, some "RECONSTRUCTION"⟩

def reconstructedChunk : EvidenceChunkSpec :=
  ⟨0, "084fed08b978af4d7d196a7446a86b58009e636b611db16211b65a9aadff29c5", [3]⟩

def consume (e : Event) : List Event := e :: evaluation

def reconstructionRun : List Event :=
  [.manifest liveManifest, .manifest reconstructedManifest,
    .chunk reconstructedChunk].flatMap consume

theorem append_consume (es : List Event) (e : Event) :
    es ++ consume e = (es ++ [e]) ++ evaluation := by
  rw [List.append_assoc]
  rfl

theorem applyChunk_of_consistent {c : EvidenceChunkSpec} {store : Option Dataset}
    (h : EvidenceAssembly.chunkIsSelfConsistent c = true) : applyChunk c store = putChunk c store :=
  if_neg (not_not.mpr h)

theorem evaluation_of_judged {s : State} {d : Dataset} (hstore : s.store = some d)
    (h : d.manifest.readiness ≠ .pending) :
    (Machine.stateAfter step s evaluation).store = some d := by
  obtain ⟨store, evaluations⟩ := s
  obtain rfl : store = some d := hstore
  have hbegin : beginEvaluation 0 ⟨some d, evaluations⟩ = ⟨some d, evaluations.erase 0⟩ := if_neg h
  have hnone : (evaluations.erase 0).get? 0 = none := by
    rw [Dict.get?_erase, if_pos rfl]
  simp only [evaluation, Machine.stateAfter_cons, Machine.stateAfter_nil, step, hbegin,
    countEvaluation, loadEvaluation, endEvaluation, hnone]

theorem evaluation_of_complete {s : State} {d : Dataset} (hstore : s.store = some d)
    (hpending : d.manifest.readiness = .pending)
    (hcount : ¬ (EvidenceBlobStore.countChunks (some d) : ℤ) < d.manifest.declared.chunkCount)
    (hverdict : (EvidenceAssembly.evaluate d.manifest.declared
      (EvidenceBlobStore.getChunks (some d))).readiness = .complete) :
    (Machine.stateAfter step s evaluation).store =
      EvidenceBlobStore.setReadiness .complete none (some d) := by
  obtain ⟨store, evaluations⟩ := s
  obtain rfl : store = some d := hstore
  simp only [evaluation, Machine.stateAfter_cons, Machine.stateAfter_nil, step, beginEvaluation,
    if_pos hpending, countEvaluation, Dict.get?_set_self, if_neg hcount, loadEvaluation,
    endEvaluation, hverdict]

def reconstructed (readiness : Readiness) (retentionClass : RetentionClass)
    (chunks : List EvidenceChunkSpec) : Dataset where
  manifest := ⟨reconstructedManifest.spec, readiness, none, retentionClass, false⟩
  chunks := chunks.foldl (fun rows c => rows.set c.chunkNo ⟨c.sha256, c.payload⟩) Dict.empty

theorem sha256Hex_reconstructed : EvidenceAssembly.sha256Hex [3] = reconstructedChunk.sha256 := by
  decide +kernel

theorem consistent_reconstructedChunk :
    EvidenceAssembly.chunkIsSelfConsistent reconstructedChunk = true := by
  unfold EvidenceAssembly.chunkIsSelfConsistent
  rw [show reconstructedChunk.payload = [3] from rfl, sha256Hex_reconstructed]
  exact equalsOrdinalIgnoreCase_refl _

theorem sha256Hex_late : EvidenceAssembly.sha256Hex [2] = lateChunk.sha256 := by
  decide +kernel

theorem consistent_lateChunk : EvidenceAssembly.chunkIsSelfConsistent lateChunk = true := by
  unfold EvidenceAssembly.chunkIsSelfConsistent
  rw [show lateChunk.payload = [2] from rfl, sha256Hex_late]
  exact equalsOrdinalIgnoreCase_refl _

theorem evaluate_reconstructed : (EvidenceAssembly.evaluate reconstructedManifest.spec
    [reconstructedChunk]).readiness = .complete := by
  have hplace : EvidenceAssembly.place reconstructedManifest.spec Dict.empty reconstructedChunk =
      .ok (Dict.empty.set 0 reconstructedChunk) := by
    unfold EvidenceAssembly.place
    rw [if_neg (by decide)]
    exact (if_neg (not_not.mpr consistent_reconstructedChunk)).trans
      (if_neg (not_not.mpr (equalsOrdinalIgnoreCase_refl _)))
  have hfold : [reconstructedChunk].foldlM (EvidenceAssembly.place reconstructedManifest.spec)
      Dict.empty = .ok (Dict.empty.set 0 reconstructedChunk) := by
    rw [List.foldlM_cons, hplace]
    rfl
  exact EvidenceAssembly.evaluate_complete_iff.mpr ⟨by decide, by decide, _, hfold, by decide,
    by decide, consistent_reconstructedChunk⟩

theorem store_reconstructed {es : List Event} {retentionClass : RetentionClass}
    (h : (after es).store = some (reconstructed .pending retentionClass [])) :
    (after (es ++ consume (.chunk reconstructedChunk))).store =
      some (reconstructed .complete retentionClass [reconstructedChunk]) := by
  have hstored : (after (es ++ [.chunk reconstructedChunk])).store =
      some (reconstructed .pending retentionClass [reconstructedChunk]) := by
    rw [after_concat]
    exact (applyChunk_of_consistent consistent_reconstructedChunk).trans (by rw [h]; rfl)
  rw [append_consume, after, Machine.stateAfter_append]
  exact evaluation_of_complete hstored rfl (lt_irrefl (1 : ℤ)) evaluate_reconstructed

/-- The second chunk of the live artifact is stored beside the only one that is declared. -/
theorem late_chunk_under_complete :
    ¬ Truthful (after (reconstructionRun ++ consume (.chunk lateChunk))).store := by
  have hreplaced : (after ([.manifest liveManifest, .manifest reconstructedManifest].flatMap
      consume)).store = some (reconstructed .pending .standard []) := by
    decide +kernel
  have hrun : reconstructionRun = [.manifest liveManifest, .manifest reconstructedManifest].flatMap
      consume ++ consume (.chunk reconstructedChunk) := rfl
  have hcomplete : (after reconstructionRun).store =
      some (reconstructed .complete .standard [reconstructedChunk]) := by
    rw [hrun]
    exact store_reconstructed hreplaced
  have hlate : (after (reconstructionRun ++ [.chunk lateChunk])).store =
      some (reconstructed .complete .standard [reconstructedChunk, lateChunk]) := by
    rw [after_concat]
    exact (applyChunk_of_consistent consistent_lateChunk).trans (by rw [hcomplete]; rfl)
  have hjudged : (after (reconstructionRun ++ consume (.chunk lateChunk))).store =
      some (reconstructed .complete .standard [reconstructedChunk, lateChunk]) := by
    rw [append_consume, after, Machine.stateAfter_append]
    exact evaluation_of_judged hlate (by decide)
  intro htruthful
  obtain ⟨-, hhigh⟩ := ((htruthful _ hjudged rfl).numbers 1).mp (by decide)
  exact absurd hhigh (by decide)

def soundRun : List Event :=
  [.manifest reconstructedManifest, .chunk reconstructedChunk] ++ evaluation

theorem guarded_soundRun : Machine.Always step Guarded start soundRun := by
  refine ⟨trivial, fun _ d hd hcomplete => ?_, trivial, trivial, trivial, ?_, trivial⟩
  · rw [← Option.some.inj hd] at hcomplete
    cases hcomplete
  · intro m chunks hloaded _ d hd _
    -- what the evaluation has read is what is stored
    have hstate : ((after (soundRun.take 5)).evaluations.get? 0,
        EvidenceBlobStore.getChunks (after (soundRun.take 5)).store,
        (after (soundRun.take 5)).store.map fun d => d.manifest.declared) =
        (some (.loaded reconstructedManifest.spec [reconstructedChunk]), [reconstructedChunk],
          some reconstructedManifest.spec) := by
      decide +kernel
    simp only [Prod.mk.injEq] at hstate
    obtain ⟨hread, hchunks, hdeclared⟩ := hstate
    have hstore : (after (soundRun.take 5)).store = some d := hd
    cases hread.symm.trans hloaded
    rw [hstore] at hdeclared
    exact ⟨Option.some.inj hdeclared, hchunks⟩

theorem complete_is_verified_sample : ∃ d ∈ (after soundRun).store,
    d.manifest.readiness = .complete ∧ Verified d.manifest.declared d.chunks := by
  have hstore : (after soundRun).store =
      some (reconstructed .complete .standard [reconstructedChunk]) :=
    store_reconstructed (by decide : (after [.manifest reconstructedManifest]).store =
      some (reconstructed .pending .standard []))
  exact ⟨_, hstore, rfl,
    complete_is_verified soundRun guarded_soundRun soundRun List.prefix_rfl _ hstore rfl⟩

end OpenBridge.Evidence
