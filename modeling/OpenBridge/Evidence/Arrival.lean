import OpenBridge.Evidence.EvidenceAssembly

/-!
# Evidence: arrival

The records of an artifact reach the consumer in any order, more than once, mixed with the records
of other artifacts, some not at all and some damaged.
-/

namespace OpenBridge.Evidence

open OpenBridge.Foundation EvidenceChunker EvidenceKafkaRecords

/-! ## The consumer's view -/

def chunksOf (evidenceId : String) (received : List EvidenceRecord) : List EvidenceChunkSpec :=
  received.filterMap fun r =>
    match r with
    | .manifest _ => none
    | .chunk id c => if id = evidenceId then some c else none

def manifestIn (evidenceId : String) (received : List EvidenceRecord) :
    Option EvidenceManifestSpec :=
  received.findSome? fun r =>
    match r with
    | .manifest m => if m.evidenceId = evidenceId then some m else none
    | .chunk _ _ => none

def readinessAfter (evidenceId : String) (received : List EvidenceRecord) : EvidenceReadiness :=
  match manifestIn evidenceId received with
  | none => .pending
  | some m => (EvidenceAssembly.evaluate m (chunksOf evidenceId received)).readiness

theorem mem_chunksOf {evidenceId : String} {received : List EvidenceRecord}
    {c : EvidenceChunkSpec} : c ∈ chunksOf evidenceId received ↔ .chunk evidenceId c ∈ received := by
  unfold chunksOf
  rw [List.mem_filterMap]
  constructor
  · rintro ⟨r, hr, hc⟩
    cases r with
    | manifest m => exact absurd hc (by simp)
    | chunk id d =>
      dsimp only at hc
      split at hc
      · rename_i hid
        rw [hid, Option.some.inj hc] at hr
        exact hr
      · exact absurd hc (by simp)
  · intro h
    exact ⟨_, h, by simp⟩

theorem of_manifestIn {evidenceId : String} {received : List EvidenceRecord}
    {m : EvidenceManifestSpec} (h : manifestIn evidenceId received = some m) :
    .manifest m ∈ received ∧ m.evidenceId = evidenceId := by
  obtain ⟨r, hr, hm⟩ := List.exists_of_findSome?_eq_some h
  cases r with
  | chunk id c => exact absurd hm (by simp)
  | manifest n =>
    dsimp only at hm
    split at hm
    · rename_i hid
      rw [← Option.some.inj hm]
      exact ⟨hr, hid⟩
    · exact absurd hm (by simp)

theorem exists_manifestIn {received : List EvidenceRecord} {m : EvidenceManifestSpec}
    (h : .manifest m ∈ received) : ∃ n, manifestIn m.evidenceId received = some n := by
  rw [← Option.isSome_iff_exists, manifestIn, List.findSome?_isSome_iff]
  exact ⟨_, h, by simp⟩

/-! ## What has arrived -/

/-- The manifest has arrived, and a chunk with the payload of every produced one. -/
def Arrived (evidenceId : String) (produced received : List EvidenceRecord) : Prop :=
  (∀ m, .manifest m ∈ produced → .manifest m ∈ received) ∧
  ∀ c, .chunk evidenceId c ∈ produced →
    ∃ d, .chunk evidenceId d ∈ received ∧ d.chunkNo = c.chunkNo ∧ d.payload = c.payload

/-- Every chunk received has the number and the payload of a produced one. -/
def Undamaged (evidenceId : String) (produced received : List EvidenceRecord) : Prop :=
  ∀ d, .chunk evidenceId d ∈ received →
    ∃ c, .chunk evidenceId c ∈ produced ∧ d.chunkNo = c.chunkNo ∧ d.payload = c.payload

/-- Every chunk received names the number and the checksum of a produced one; its payload may be
damaged. -/
def Labelled (evidenceId : String) (produced received : List EvidenceRecord) : Prop :=
  ∀ d, .chunk evidenceId d ∈ received →
    ∃ c, .chunk evidenceId c ∈ produced ∧ d.chunkNo = c.chunkNo ∧ d.sha256 = c.sha256

def CollisionFree (blocks : List (List UInt8)) : Prop :=
  ∀ b ∈ blocks, ∀ b' ∈ blocks, sha256Hex b = sha256Hex b' → b = b'

def payloadsOf (evidenceId : String) (records : List EvidenceRecord) : List (List UInt8) :=
  (chunksOf evidenceId records).map (·.payload)

/-! ## The producer's records -/

section Producer

variable {gzip : List UInt8 → List UInt8} {a : EvidenceArtifact} {produced : List EvidenceRecord}

theorem exists_chunks (h : records gzip a = some produced) : ∃ encoded chunks,
    encode gzip a = some encoded ∧ chunks.flatten = encoded ∧ chunks ≠ [] ∧
      (∀ m, .manifest m ∈ produced ↔ m = manifestOf a.evidenceId encoded chunks) ∧
      ∀ c, .chunk a.evidenceId c ∈ produced ↔
        ∃ (i : ℕ) (hi : i < chunks.length), c = chunkOf i chunks[i] := by
  unfold records at h
  obtain ⟨encoded, hencode, h⟩ := Option.bind_eq_some_iff.mp h
  obtain ⟨chunks, hsplit, h⟩ := Option.bind_eq_some_iff.mp h
  obtain rfl := Option.some.inj h
  refine ⟨encoded, chunks, hencode, flatten_split hsplit, split_ne_nil hsplit, ?_, ?_⟩
  · intro m
    simp [List.mem_mapIdx]
  · intro c
    simp only [List.mem_cons, reduceCtorEq, false_or, List.mem_mapIdx, EvidenceRecord.chunk.injEq,
      true_and]
    constructor
    · rintro ⟨i, hi, rfl⟩
      exact ⟨i, hi, rfl⟩
    · rintro ⟨i, hi, rfl⟩
      exact ⟨i, hi, rfl⟩

variable {received : List EvidenceRecord} {encoded : List UInt8} {chunks : List (List UInt8)}
  {m : EvidenceManifestSpec} {byNo : Dict ℤ EvidenceChunkSpec}

theorem payload_of_fits {evidenceId : String} {c : EvidenceChunkSpec} {blocks : List (List UInt8)}
    (hfree : CollisionFree blocks) (hchunks : ∀ b ∈ chunks, b ∈ blocks) (hc : c.payload ∈ blocks)
    (h : EvidenceAssembly.Fits (manifestOf evidenceId encoded chunks) c) :
    ∃ (i : ℕ) (hi : i < chunks.length), c.chunkNo = i ∧ c.payload = chunks[i] := by
  obtain ⟨hlow, hhigh, hself, hdeclared⟩ := h
  have hi : c.chunkNo.toNat < chunks.length := by
    simp only [manifestOf] at hhigh
    omega
  refine ⟨c.chunkNo.toNat, hi, by omega, hfree _ hc _ (hchunks _ (List.getElem_mem hi)) ?_⟩
  -- the payload and the declared chunk have the checksum of the record, up to case
  refine sha256Hex_ignoringCase (equalsOrdinalIgnoreCase_of_left hself ?_)
  have hget : (manifestOf evidenceId encoded chunks).chunkSha256.getD c.chunkNo.toNat "" =
      sha256Hex chunks[c.chunkNo.toNat] := by
    simp [manifestOf, hi]
  rwa [hget] at hdeclared

theorem fits_chunkOf (evidenceId : String) {c : EvidenceChunkSpec} {i : ℕ} (hi : i < chunks.length)
    (hno : c.chunkNo = i) (hpayload : c.payload = chunks[i])
    (hsha : c.sha256 = sha256Hex chunks[i]) :
    EvidenceAssembly.Fits (manifestOf evidenceId encoded chunks) c where
  low := by omega
  high := by
    simp only [manifestOf]
    omega
  consistent := by
    unfold EvidenceAssembly.chunkIsSelfConsistent EvidenceAssembly.sha256Hex
    rw [hpayload, hsha]
    exact equalsOrdinalIgnoreCase_refl _
  declared := by
    have hget : (manifestOf evidenceId encoded chunks).chunkSha256.getD c.chunkNo.toNat "" =
        sha256Hex chunks[i] := by
      simp [manifestOf, hno, hi]
    rw [hget, hsha]
    exact equalsOrdinalIgnoreCase_refl _

theorem eq_of_forall_getElem {parts : List EvidenceChunkSpec}
    (hnumbers : parts.map (·.chunkNo) = (List.range chunks.length).map fun i : ℕ => (i : ℤ))
    (h : ∀ p ∈ parts, ∀ (i : ℕ) (hi : i < chunks.length), p.chunkNo = i → p.payload = chunks[i]) :
    parts.map (·.payload) = chunks := by
  have hlen : parts.length = chunks.length := by
    have := congrArg List.length hnumbers
    rwa [List.length_map, List.length_map, List.length_range] at this
  refine List.ext_getElem (by rw [List.length_map, hlen]) fun i hi hi' => ?_
  have hp : i < parts.length := by omega
  have hno : parts[i].chunkNo = i := by
    have hget : (parts.map (·.chunkNo))[i]? =
        ((List.range chunks.length).map fun i : ℕ => (i : ℤ))[i]? := by rw [hnumbers]
    simpa [hp, hi'] using hget
  rw [List.getElem_map]
  exact h _ (List.getElem_mem hp) i hi' hno

theorem joined_eq (h : ∀ (i : ℕ) (hi : i < chunks.length),
    ∃ c, byNo.get? i = some c ∧ c.payload = chunks[i]) :
    EvidenceAssembly.joined byNo chunks.length = chunks.flatten := by
  unfold EvidenceAssembly.joined
  rw [List.flatMap_def]
  congr 1
  refine List.ext_getElem (by simp) fun i hi hi' => ?_
  obtain ⟨c, hc, hpayload⟩ := h i hi'
  simp [hc, hpayload]

theorem payload_mem_payloadsOf {evidenceId : String} {records : List EvidenceRecord}
    {c : EvidenceChunkSpec} (h : .chunk evidenceId c ∈ records) :
    c.payload ∈ payloadsOf evidenceId records :=
  List.mem_map_of_mem (mem_chunksOf.mpr h)

theorem received_of_complete {evidenceId : String} {blocks : List (List UInt8)}
    (hfree : CollisionFree blocks) (hchunks : ∀ b ∈ chunks, b ∈ blocks)
    (hblocks : ∀ d : EvidenceChunkSpec, .chunk evidenceId d ∈ received → d.payload ∈ blocks)
    (hm : manifestIn evidenceId received = some (manifestOf evidenceId encoded chunks))
    (h : readinessAfter evidenceId received = .complete) :
    (∀ d : EvidenceChunkSpec, .chunk evidenceId d ∈ received →
      ∃ (i : ℕ) (hi : i < chunks.length), d.chunkNo = i ∧ d.payload = chunks[i]) ∧
    ∀ i < chunks.length, ∃ d : EvidenceChunkSpec, .chunk evidenceId d ∈ received ∧ d.chunkNo = i := by
  unfold readinessAfter at h
  rw [hm] at h
  obtain ⟨-, -, byNo, hfold, hcount, -⟩ := EvidenceAssembly.evaluate_complete_iff.mp h
  have hplaced := EvidenceAssembly.placed_of_fold hfold
  constructor
  · intro d hd
    obtain ⟨first, hfirst, hsame⟩ := hplaced.covers d (mem_chunksOf.mpr hd)
    obtain ⟨hmem, hno, hfits⟩ := hplaced.fits _ _ hfirst
    obtain ⟨i, hi, hi', hpayload⟩ :=
      payload_of_fits hfree hchunks (hblocks first (mem_chunksOf.mp hmem)) hfits
    exact ⟨i, hi, hno.symm.trans hi', hsame.symm.trans hpayload⟩
  · intro i hi
    obtain ⟨c, hc⟩ := hplaced.count_le_iff.mp hcount i (by omega) (by simpa [manifestOf] using hi)
    obtain ⟨hmem, hno, -⟩ := hplaced.fits _ _ hc
    exact ⟨c, mem_chunksOf.mp hmem, hno⟩

theorem complete_of_received {evidenceId : String} (hne : chunks ≠ [])
    (hjoin : chunks.flatten = encoded)
    (hm : manifestIn evidenceId received = some (manifestOf evidenceId encoded chunks))
    (hsound : ∀ d : EvidenceChunkSpec, .chunk evidenceId d ∈ received → ∃ (i : ℕ) (hi : i < chunks.length),
      d.chunkNo = i ∧ d.payload = chunks[i] ∧ d.sha256 = sha256Hex chunks[i])
    (hall : ∀ i < chunks.length, ∃ d : EvidenceChunkSpec, .chunk evidenceId d ∈ received ∧ d.chunkNo = i) :
    readinessAfter evidenceId received = .complete := by
  have hpos : 0 < chunks.length := List.length_pos_iff.mpr hne
  have hfits : ∀ d ∈ chunksOf evidenceId received,
      EvidenceAssembly.Fits (manifestOf evidenceId encoded chunks) d := by
    intro d hd
    obtain ⟨i, hi, hno, hpayload, hsha⟩ := hsound d (mem_chunksOf.mp hd)
    exact fits_chunkOf evidenceId hi hno hpayload hsha
  have hpayload : ∀ d ∈ chunksOf evidenceId received, ∀ (i : ℕ) (hi : i < chunks.length),
      d.chunkNo = i → d.payload = chunks[i] := by
    intro d hd i hi hno
    obtain ⟨j, hj, hno', hpayload, -⟩ := hsound d (mem_chunksOf.mp hd)
    obtain rfl : i = j := by omega
    exact hpayload
  obtain ⟨byNo, hfold⟩ := EvidenceAssembly.exists_fold hfits fun c hc d hd hno => by
    obtain ⟨i, hi, hci, -⟩ := hsound c (mem_chunksOf.mp hc)
    rw [hpayload c hc i hi hci, hpayload d hd i hi (hno.symm.trans hci)]
  have hplaced := EvidenceAssembly.placed_of_fold hfold
  have hplace : ∀ (i : ℕ) (hi : i < chunks.length),
      ∃ c, byNo.get? i = some c ∧ c.payload = chunks[i] := by
    intro i hi
    obtain ⟨d, hd, hno⟩ := hall i hi
    obtain ⟨first, hfirst, hsame⟩ := hplaced.covers d (mem_chunksOf.mpr hd)
    rw [hno] at hfirst
    exact ⟨first, hfirst, hsame.trans (hpayload d (mem_chunksOf.mpr hd) i hi hno)⟩
  have hjoined : EvidenceAssembly.joined byNo
      (manifestOf evidenceId encoded chunks).chunkCount.toNat = encoded := by
    rw [← hjoin]
    exact joined_eq hplace
  unfold readinessAfter
  rw [hm]
  refine EvidenceAssembly.evaluate_complete_iff.mpr
    ⟨by simpa [manifestOf] using hpos, by simp [manifestOf], byNo, hfold, ?_, ?_, ?_⟩
  · refine hplaced.count_le_iff.mpr fun no hlow hhigh => ?_
    simp only [manifestOf] at hhigh
    obtain ⟨c, hc, -⟩ := hplace no.toNat (by omega)
    rw [Int.toNat_of_nonneg hlow] at hc
    exact ⟨c, hc⟩
  · rw [hjoined]
    rfl
  · rw [hjoined]
    exact equalsOrdinalIgnoreCase_refl _

end Producer

/-! ## Completeness -/

/-- `COMPLETE` is found exactly when the manifest and every declared chunk have arrived
undamaged, and the chunks then decode to the original columns. -/
theorem complete_iff_arrived (gzip : List UInt8 → List UInt8)
    (gunzip : List UInt8 → Option (List UInt8)) (hgzip : ∀ b, gunzip (gzip b) = some b)
    (a : EvidenceArtifact) (produced received : List EvidenceRecord)
    (hproduced : records gzip a = some produced)
    (hmanifest : ∀ m, .manifest m ∈ received → m.evidenceId = a.evidenceId →
      .manifest m ∈ produced)
    (hfree : CollisionFree (payloadsOf a.evidenceId (produced ++ received))) :
    (Labelled a.evidenceId produced received →
      (readinessAfter a.evidenceId received = .complete ↔
        Arrived a.evidenceId produced received ∧ Undamaged a.evidenceId produced received)) ∧
    (readinessAfter a.evidenceId received = .complete →
      Arrived a.evidenceId produced received ∧ Undamaged a.evidenceId produced received ∧
      ∀ m, .manifest m ∈ produced → ∀ parts : List EvidenceChunkSpec,
        (∀ p ∈ parts, .chunk a.evidenceId p ∈ received) →
        parts.map (·.chunkNo) = (List.range m.chunkCount.toNat).map (fun i : ℕ => (i : ℤ)) →
        decode gunzip (join (parts.map (·.payload))) a.columnCount a.calculationSamples =
          some a.contents) := by
  obtain ⟨encoded, chunks, hencode, hjoin, hne, hm, hc⟩ := exists_chunks hproduced
  have hchunks : ∀ b ∈ chunks, b ∈ payloadsOf a.evidenceId (produced ++ received) := by
    intro b hb
    obtain ⟨i, hi, rfl⟩ := List.getElem_of_mem hb
    exact payload_mem_payloadsOf (c := chunkOf i chunks[i])
      (List.mem_append_left _ ((hc _).mpr ⟨i, hi, rfl⟩))
  have hblocks : ∀ d, .chunk a.evidenceId d ∈ received →
      d.payload ∈ payloadsOf a.evidenceId (produced ++ received) :=
    fun d hd => payload_mem_payloadsOf (List.mem_append_right _ hd)
  -- the manifest that is found is the producer's
  have hfound : ∀ m, manifestIn a.evidenceId received = some m →
      m = manifestOf a.evidenceId encoded chunks := by
    intro m hin
    obtain ⟨hmem, hid⟩ := of_manifestIn hin
    exact (hm m).mp (hmanifest m hmem hid)
  have hcomplete : readinessAfter a.evidenceId received = .complete →
      manifestIn a.evidenceId received = some (manifestOf a.evidenceId encoded chunks) := by
    intro h
    unfold readinessAfter at h
    split at h
    · cases h
    · rename_i m hin
      rw [hin, hfound m hin]
  have hsound : readinessAfter a.evidenceId received = .complete →
      Arrived a.evidenceId produced received ∧ Undamaged a.evidenceId produced received := by
    intro h
    obtain ⟨hevery, hall⟩ := received_of_complete hfree hchunks hblocks (hcomplete h) h
    refine ⟨⟨fun m hmem => ?_, fun c hmem => ?_⟩, fun d hd => ?_⟩
    · rw [(hm m).mp hmem]
      exact (of_manifestIn (hcomplete h)).1
    · obtain ⟨i, hi, rfl⟩ := (hc c).mp hmem
      obtain ⟨d, hd, hno⟩ := hall i hi
      obtain ⟨j, hj, hno', hpayload⟩ := hevery d hd
      obtain rfl : i = j := by omega
      exact ⟨d, hd, hno, hpayload⟩
    · obtain ⟨i, hi, hno, hpayload⟩ := hevery d hd
      exact ⟨chunkOf i chunks[i], (hc _).mpr ⟨i, hi, rfl⟩, hno, hpayload⟩
  refine ⟨fun hlabelled => ⟨hsound, ?_⟩, fun h => ⟨(hsound h).1, (hsound h).2, ?_⟩⟩
  · rintro ⟨⟨hmanifests, harrived⟩, hundamaged⟩
    obtain ⟨n, hn⟩ := exists_manifestIn (hmanifests _ ((hm _).mpr rfl))
    rw [hfound n hn] at hn
    refine complete_of_received hne hjoin hn (fun d hd => ?_) fun i hi => ?_
    · obtain ⟨c, hmem, hno, hsha⟩ := hlabelled d hd
      obtain ⟨c', hmem', hno', hpayload⟩ := hundamaged d hd
      obtain ⟨i, hi, rfl⟩ := (hc c).mp hmem
      obtain ⟨j, hj, rfl⟩ := (hc c').mp hmem'
      obtain rfl : i = j := by
        simp only [chunkOf] at hno hno'
        omega
      exact ⟨i, hi, hno, hpayload, hsha⟩
    · obtain ⟨d, hd, hno, -⟩ := harrived _ ((hc _).mpr ⟨i, hi, rfl⟩)
      exact ⟨d, hd, hno⟩
  · intro m hmem parts hparts hnumbers
    obtain ⟨hevery, -⟩ := received_of_complete hfree hchunks hblocks (hcomplete h) h
    rw [(hm m).mp hmem] at hnumbers
    have hpayloads : parts.map (·.payload) = chunks := by
      refine eq_of_forall_getElem hnumbers fun p hp i hi hno => ?_
      obtain ⟨j, hj, hno', hpayload⟩ := hevery p (hparts p hp)
      obtain rfl : i = j := by omega
      exact hpayload
    rw [hpayloads, join, hjoin]
    exact decode_encode hgzip hencode

/-- Two columns of one sample, `0.0` and `1.0`. -/
def sampleArtifact : EvidenceArtifact where
  evidenceId := "7c0e"
  x := [0]
  y := [0x3FF0000000000000]
  mask := none
  columns := Dict.empty
  length_y := rfl
  length_mask := by simp
  length_column := by simp

def sampleEncoded : List UInt8 :=
  [31, 139, 8, 0, 0, 0, 0, 0, 0, 255, 99, 96, 64, 6, 31, 236, 1, 213, 135, 97, 78, 16, 0, 0, 0]

def sampleGzip (b : List UInt8) : List UInt8 :=
  if b = body sampleArtifact then sampleEncoded else 0 :: b

def sampleGunzip (b : List UInt8) : Option (List UInt8) :=
  if b = sampleEncoded then some (body sampleArtifact) else b.tail?

def sampleRecords : List EvidenceRecord :=
  [.manifest (manifestOf "7c0e" sampleEncoded [sampleEncoded]),
    .chunk "7c0e" (chunkOf 0 sampleEncoded)]

theorem sampleGunzip_sampleGzip (b : List UInt8) : sampleGunzip (sampleGzip b) = some b := by
  unfold sampleGzip sampleGunzip
  split
  · rename_i hb
    rw [if_pos rfl, hb]
  · rw [if_neg (by simp [sampleEncoded])]
    rfl

theorem records_sampleArtifact : records sampleGzip sampleArtifact = some sampleRecords := by
  have hencode : encode sampleGzip sampleArtifact = some sampleEncoded := by decide
  have hsplit : split sampleEncoded DEFAULT_CHUNK_BYTES = some [sampleEncoded] :=
    split_of_length_le (by simp [sampleEncoded]) (by decide) (by decide)
  unfold records
  rw [hencode, Option.bind_eq_bind, Option.bind_some, hsplit]
  rfl

/-- The chunk arrives before the manifest, and both arrive twice. -/
theorem complete_iff_arrived_sample :
    readinessAfter "7c0e" (sampleRecords.reverse ++ sampleRecords) = .complete ∧
      decode sampleGunzip (join [sampleEncoded]) 2 1 = some [[0], [0x3FF0000000000000]] := by
  have hpart : .chunk "7c0e" (chunkOf 0 sampleEncoded) ∈ sampleRecords.reverse ++ sampleRecords :=
    List.mem_append_right _ (List.mem_cons_of_mem _ List.mem_cons_self)
  have hall : ∀ r, r ∈ sampleRecords.reverse ++ sampleRecords ↔ r ∈ sampleRecords := by
    intro r
    rw [List.mem_append, List.mem_reverse, or_self]
  have hmain := complete_iff_arrived sampleGzip sampleGunzip sampleGunzip_sampleGzip sampleArtifact
    sampleRecords (sampleRecords.reverse ++ sampleRecords) records_sampleArtifact
    (fun m hm _ => (hall _).mp hm)
    (by
      intro b hb b' hb' _
      simp [payloadsOf, chunksOf, sampleRecords, sampleArtifact, chunkOf] at hb hb'
      rw [hb, hb'])
  have hcomplete := (hmain.1 fun d hd => ⟨d, (hall _).mp hd, rfl, rfl⟩).mpr
    ⟨⟨fun m hm => (hall _).mpr hm, fun c hc => ⟨c, (hall _).mpr hc, rfl, rfl⟩⟩,
      fun d hd => ⟨d, (hall _).mp hd, rfl, rfl⟩⟩
  refine ⟨hcomplete, ?_⟩
  exact (hmain.2 hcomplete).2.2 _ List.mem_cons_self [chunkOf 0 sampleEncoded]
    (fun p hp => List.mem_singleton.mp hp ▸ hpart) rfl

end OpenBridge.Evidence
