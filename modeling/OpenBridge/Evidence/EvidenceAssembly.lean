import OpenBridge.Foundation.Sha256
import OpenBridge.Foundation.Dict
import OpenBridge.Foundation.Double

/-!
# Evidence: chunker

The wire encoding of an evidence artifact: each column as doubles in little-endian order, one after
another, compressed, and split into chunks that fit a record.  `gzip` and `gunzip` are those of the
platforms; `gunzip` has no value on bytes that are no gzip stream.
-/

namespace OpenBridge.Evidence

open OpenBridge.Foundation

/-- One evidence artifact of a method run.  The lengths are what `series` and `column` require. -/
structure EvidenceArtifact where
  evidenceId : String
  x : List UInt64
  y : List UInt64
  /-- true where the point was accepted by the method -/
  mask : Option (List Bool)
  /-- further columns by name -/
  columns : Dict String (List UInt64)
  length_y : y.length = x.length
  length_mask : ∀ m ∈ mask, m.length = x.length
  length_column : ∀ c ∈ columns.values, c.length = x.length

/-- What the evidence consumer knows about a manifest: its declared chunking and checksums. -/
structure EvidenceManifestSpec where
  evidenceId : String
  chunkCount : ℤ
  totalBytes : ℤ
  sha256 : String
  chunkSha256 : List String
  deriving DecidableEq

structure EvidenceChunkSpec where
  chunkNo : ℤ
  sha256 : String
  payload : List UInt8
  deriving DecidableEq

/-- A record of the evidence topic; a chunk names the artifact it belongs to. -/
inductive EvidenceRecord where
  | manifest (m : EvidenceManifestSpec)
  | chunk (evidenceId : String) (c : EvidenceChunkSpec)
  deriving DecidableEq

namespace EvidenceArtifact

variable (a : EvidenceArtifact)

def calculationSamples : ℕ := a.x.length

def columnCount : ℕ := (if a.mask.isNone then 2 else 3) + a.columns.keys.length

/-- A mask point as a double: the bits of `1.0` or `0.0`. -/
def maskDouble (accepted : Bool) : UInt64 := if accepted then 0x3FF0000000000000 else 0

def contents : List (List UInt64) :=
  a.x :: a.y :: ((a.mask.map fun m => m.map maskDouble).toList ++ a.columns.values)

theorem length_contents : a.contents.length = a.columnCount := by
  have hvalues : a.columns.values.length = a.columns.keys.length := by
    rw [Dict.values, Dict.keys, List.length_map, List.length_map]
  unfold contents columnCount
  cases hmask : a.mask with
  | none => simp [hvalues]; omega
  | some m => simp [hvalues]; omega

theorem length_of_mem_contents {c : List UInt64} (h : c ∈ a.contents) :
    c.length = a.calculationSamples := by
  unfold contents at h
  rcases List.mem_cons.mp h with rfl | h
  · rfl
  · rcases List.mem_cons.mp h with rfl | h
    · exact a.length_y
    · rcases List.mem_append.mp h with h | h
      · obtain ⟨m, hm, rfl⟩ := Option.mem_map.mp (Option.mem_toList.mp h)
        rw [List.length_map]
        exact a.length_mask m hm
      · exact a.length_column c h

end EvidenceArtifact

namespace EvidenceChunker

def DEFAULT_CHUNK_BYTES : ℕ := 256 * 1024

/-- `putDouble` for each double of a column. -/
def putDoubles (ds : List UInt64) : List UInt8 := ds.flatMap fun d => littleEndian 8 d.toNat

def body (a : EvidenceArtifact) : List UInt8 :=
  putDoubles a.x ++ putDoubles a.y ++
    (match a.mask with
      | none => []
      | some m => putDoubles (m.map EvidenceArtifact.maskDouble)) ++
    a.columns.values.flatMap putDoubles

/-- The payload of an artifact.  The size of the buffer is an `int`: nothing is encoded when the
size is negative or the doubles run over its end. -/
def encode (gzip : List UInt8 → List UInt8) (a : EvidenceArtifact) : Option (List UInt8) :=
  let size := wrap32 (wrap32 (a.calculationSamples * a.columnCount) * 8)
  if size < (body a).length then none
  else some (gzip (body a ++ List.replicate (size.toNat - (body a).length) 0))

/-- `n` doubles from the front, if there are as many. -/
def getDoubles : ℕ → List UInt8 → Option (List UInt64 × List UInt8)
  | 0, bytes => some ([], bytes)
  | n + 1, bytes =>
      if bytes.length < 8 then none
      else (getDoubles n (bytes.drop 8)).map fun r =>
        (UInt64.ofNat (ofLittleEndian (bytes.take 8)) :: r.1, r.2)

/-- `columns` columns of `n` doubles each from the front. -/
def getColumns : ℕ → ℕ → List UInt8 → Option (List (List UInt64))
  | 0, _, _ => some []
  | columns + 1, n, bytes =>
      (getDoubles n bytes).bind fun r => (getColumns columns n r.2).map (r.1 :: ·)

def decode (gunzip : List UInt8 → Option (List UInt8)) (encoded : List UInt8) (columns n : ℕ) :
    Option (List (List UInt64)) :=
  (gunzip encoded).bind fun raw =>
    if (raw.length : ℤ) ≠ wrap32 (wrap32 (columns * n) * 8) then none else getColumns columns n raw

/-- The loop of `split` at the offset `off`, where `rest` is the data from there on.  An offset
past the largest `int` turns negative, and no chunk can be allocated for it. -/
def splitFrom (chunkBytes : ℕ) (off : ℕ) : List UInt8 → Option (List (List UInt8))
  | [] => some []
  | b :: rest =>
      if 2 ^ 31 ≤ off + chunkBytes then none
      else (splitFrom chunkBytes (off + chunkBytes) (rest.drop (chunkBytes - 1))).map
        ((b :: rest.take (chunkBytes - 1)) :: ·)
termination_by data => data.length
decreasing_by
  rw [List.length_drop, List.length_cons]
  omega

/-- The data in chunks of at most `chunkBytes` bytes, at least one. -/
def split (data : List UInt8) (chunkBytes : ℕ) : Option (List (List UInt8)) :=
  if data = [] then some [[]] else splitFrom chunkBytes 0 data

def join (chunks : List (List UInt8)) : List UInt8 := chunks.flatten

/-- The digest of a block as lower-case hexadecimal text. -/
@[irreducible] def sha256Hex (data : List UInt8) : String :=
  Sha256.hex (Sha256.digest (data.map UInt8.toNat))

theorem sha256Hex_ignoringCase {a b : List UInt8}
    (h : toUpperInvariant (sha256Hex a) = toUpperInvariant (sha256Hex b)) :
    sha256Hex a = sha256Hex b := by
  unfold sha256Hex at h ⊢
  rw [hex_ignoringCase (fun _ => lt_of_mem_digest) (fun _ => lt_of_mem_digest) h]

end EvidenceChunker

namespace EvidenceKafkaRecords

open EvidenceChunker

def manifestOf (evidenceId : String) (encoded : List UInt8) (chunks : List (List UInt8)) :
    EvidenceManifestSpec :=
  ⟨evidenceId, chunks.length, encoded.length, sha256Hex encoded, chunks.map sha256Hex⟩

/-- The record of the chunk at position `i`. -/
def chunkOf (i : ℕ) (payload : List UInt8) : EvidenceChunkSpec := ⟨i, sha256Hex payload, payload⟩

def records (gzip : List UInt8 → List UInt8) (a : EvidenceArtifact) :
    Option (List EvidenceRecord) := do
  let encoded ← encode gzip a
  let chunks ← split encoded DEFAULT_CHUNK_BYTES
  return .manifest (manifestOf a.evidenceId encoded chunks) ::
    chunks.mapIdx fun i c => .chunk a.evidenceId (chunkOf i c)

end EvidenceKafkaRecords

/-! ## Round trip -/

namespace EvidenceChunker

theorem length_putDoubles (ds : List UInt64) : (putDoubles ds).length = 8 * ds.length := by
  induction ds with
  | nil => rfl
  | cons d ds ih =>
    rw [putDoubles, List.flatMap_cons, List.length_append, length_littleEndian, ← putDoubles, ih,
      List.length_cons]
    omega

theorem body_eq (a : EvidenceArtifact) : body a = a.contents.flatMap putDoubles := by
  unfold body EvidenceArtifact.contents
  cases a.mask with
  | none => simp
  | some m => simp

theorem length_flatMap_putDoubles {cols : List (List UInt64)} {n : ℕ}
    (h : ∀ c ∈ cols, c.length = n) : (cols.flatMap putDoubles).length = 8 * (cols.length * n) := by
  induction cols with
  | nil => simp
  | cons c cols ih =>
    rw [List.flatMap_cons, List.length_append, length_putDoubles, h c List.mem_cons_self,
      ih fun d hd => h d (List.mem_cons_of_mem _ hd), List.length_cons]
    ring

theorem length_body (a : EvidenceArtifact) :
    (body a).length = 8 * (a.columnCount * a.calculationSamples) := by
  rw [body_eq, length_flatMap_putDoubles fun c => a.length_of_mem_contents, a.length_contents]

theorem getDoubles_putDoubles (ds : List UInt64) (rest : List UInt8) :
    getDoubles ds.length (putDoubles ds ++ rest) = some (ds, rest) := by
  induction ds with
  | nil => rfl
  | cons d ds ih =>
    have hlen : (littleEndian 8 d.toNat).length = 8 := length_littleEndian 8 _
    have hput : putDoubles (d :: ds) ++ rest =
        littleEndian 8 d.toNat ++ (putDoubles ds ++ rest) := by
      rw [putDoubles, List.flatMap_cons, ← putDoubles, List.append_assoc]
    have hd : ofLittleEndian (littleEndian 8 d.toNat) = d.toNat :=
      ofLittleEndian_littleEndian (by have := d.toNat_lt; norm_num at this ⊢; exact this)
    rw [hput, List.length_cons, getDoubles, if_neg (by rw [List.length_append, hlen]; omega),
      List.drop_left' hlen, ih, List.take_left' hlen, hd, UInt64.ofNat_toNat]
    rfl

theorem getColumns_flatMap {cols : List (List UInt64)} {n : ℕ} (h : ∀ c ∈ cols, c.length = n) :
    getColumns cols.length n (cols.flatMap putDoubles) = some cols := by
  induction cols with
  | nil => rfl
  | cons c cols ih =>
    have hc : c.length = n := h c List.mem_cons_self
    subst hc
    rw [List.length_cons, getColumns, List.flatMap_cons, getDoubles_putDoubles, Option.bind_some,
      ih fun d hd => h d (List.mem_cons_of_mem _ hd)]
    rfl

theorem wrap32_size_le (n : ℕ) : wrap32 (wrap32 n * 8) ≤ (8 * n : ℕ) := by
  have hwrap : wrap32 (wrap32 n * 8) = wrap32 (n * 8) := Int.bmod_mul_bmod
  rw [hwrap, wrap32, Int.bmod]
  push_cast
  omega

theorem encode_eq_some {gzip : List UInt8 → List UInt8} {a : EvidenceArtifact}
    {encoded : List UInt8} (h : encode gzip a = some encoded) :
    encoded = gzip (body a) ∧
      ((body a).length : ℤ) = wrap32 (wrap32 (a.columnCount * a.calculationSamples) * 8) := by
  unfold encode at h
  dsimp only at h
  rw [mul_comm (a.calculationSamples : ℤ)] at h
  split at h
  · exact absurd h (by simp)
  · rename_i hsize
    have hle := wrap32_size_le (a.columnCount * a.calculationSamples)
    rw [← length_body a, Nat.cast_mul] at hle
    have heq : ((body a).length : ℤ) =
        wrap32 (wrap32 (a.columnCount * a.calculationSamples) * 8) := by omega
    refine ⟨?_, heq⟩
    rw [← heq, Int.toNat_natCast, Nat.sub_self, List.replicate_zero, List.append_nil] at h
    exact (Option.some.inj h).symm

theorem decode_encode {gzip : List UInt8 → List UInt8} {gunzip : List UInt8 → Option (List UInt8)}
    (hgzip : ∀ b, gunzip (gzip b) = some b) {a : EvidenceArtifact} {encoded : List UInt8}
    (h : encode gzip a = some encoded) :
    decode gunzip encoded a.columnCount a.calculationSamples = some a.contents := by
  obtain ⟨rfl, hsize⟩ := encode_eq_some h
  rw [decode, hgzip, Option.bind_some, if_neg (not_not_intro hsize), body_eq, ← a.length_contents]
  exact getColumns_flatMap fun c => a.length_of_mem_contents

theorem flatten_splitFrom {k off : ℕ} {data : List UInt8} {chunks : List (List UInt8)}
    (h : splitFrom k off data = some chunks) : chunks.flatten = data := by
  induction off, data using splitFrom.induct k generalizing chunks with
  | case1 => simp_all [splitFrom]
  | case2 off b rest hover =>
    rw [splitFrom, if_pos hover] at h
    exact absurd h (by simp)
  | case3 off b rest hover ih =>
    rw [splitFrom, if_neg hover] at h
    obtain ⟨tail, htail, rfl⟩ := Option.map_eq_some_iff.mp h
    rw [List.flatten_cons, ih htail, List.cons_append, List.take_append_drop]

theorem flatten_split {data : List UInt8} {k : ℕ} {chunks : List (List UInt8)}
    (h : split data k = some chunks) : chunks.flatten = data := by
  unfold split at h
  split at h
  · rename_i hdata
    rw [hdata, ← Option.some.inj h]
    rfl
  · exact flatten_splitFrom h

theorem split_of_length_le {data : List UInt8} {k : ℕ} (hne : data ≠ []) (hlen : data.length ≤ k)
    (hk : k < 2 ^ 31) : split data k = some [data] := by
  unfold split
  rw [if_neg hne]
  cases data with
  | nil => exact absurd rfl hne
  | cons b rest =>
    rw [List.length_cons] at hlen
    have hrest : rest.length ≤ k - 1 := by omega
    rw [splitFrom, if_neg (by omega), List.drop_of_length_le hrest, List.take_of_length_le hrest,
      splitFrom]
    rfl

theorem split_ne_nil {data : List UInt8} {k : ℕ} {chunks : List (List UInt8)}
    (h : split data k = some chunks) : chunks ≠ [] := by
  rintro rfl
  unfold split at h
  split at h
  · exact absurd h (by simp)
  · rename_i hdata
    exact hdata (flatten_splitFrom h).symm

end EvidenceChunker

/-!
# Evidence: assembly

Decides the readiness of an evidence manifest from the chunks that are present.
-/

inductive EvidenceReadiness where
  | pending
  | complete
  | failed
  deriving DecidableEq

structure EvidenceVerdict where
  readiness : EvidenceReadiness
  reason : Option String
  chunksPresent : ℕ
  deriving DecidableEq

namespace EvidenceAssembly

def sha256Hex (data : List UInt8) : String := EvidenceChunker.sha256Hex data

def chunkIsSelfConsistent (chunk : EvidenceChunkSpec) : Bool :=
  equalsOrdinalIgnoreCase (sha256Hex chunk.payload) chunk.sha256

def place (manifest : EvidenceManifestSpec) (byNo : Dict ℤ EvidenceChunkSpec)
    (c : EvidenceChunkSpec) : Except String (Dict ℤ EvidenceChunkSpec) :=
  if c.chunkNo < 0 ∨ manifest.chunkCount ≤ c.chunkNo then
    .error ("CHUNK_OUT_OF_RANGE:" ++ toString c.chunkNo)
  else
    match byNo.get? c.chunkNo with
    | some existing =>
        -- an identical redelivery is fine, its checksum is not read again
        if existing.payload ≠ c.payload then .error ("CHUNK_CONFLICT:" ++ toString c.chunkNo)
        else .ok byNo
    | none =>
        if ¬ chunkIsSelfConsistent c then .error ("CHUNK_CORRUPT:" ++ toString c.chunkNo)
        else if ¬ equalsOrdinalIgnoreCase c.sha256 (manifest.chunkSha256.getD c.chunkNo.toNat "") then
          .error ("CHUNK_NOT_IN_MANIFEST:" ++ toString c.chunkNo)
        else .ok (byNo.set c.chunkNo c)

/-- The payloads `0, …, n - 1` of the placed chunks, one after another. -/
def joined (byNo : Dict ℤ EvidenceChunkSpec) (n : ℕ) : List UInt8 :=
  (List.range n).flatMap fun i : ℕ => ((byNo.get? i).map (·.payload)).getD []

def evaluate (manifest : EvidenceManifestSpec) (chunks : List EvidenceChunkSpec) :
    EvidenceVerdict :=
  if manifest.chunkCount ≤ 0 then ⟨.failed, some "CHUNK_COUNT_INVALID", chunks.length⟩
  else if (manifest.chunkSha256.length : ℤ) ≠ manifest.chunkCount then
    ⟨.failed, some "MANIFEST_CHUNK_SHA_COUNT_MISMATCH", chunks.length⟩
  else
    match chunks.foldlM (place manifest) Dict.empty with
    | .error reason => ⟨.failed, some reason, chunks.length⟩
    | .ok byNo =>
        let payload := joined byNo manifest.chunkCount.toNat
        if (byNo.keys.length : ℤ) < manifest.chunkCount then ⟨.pending, none, byNo.keys.length⟩
        else if (payload.length : ℤ) ≠ manifest.totalBytes then
          ⟨.failed, some "TOTAL_BYTES_MISMATCH", byNo.keys.length⟩
        else if ¬ equalsOrdinalIgnoreCase (sha256Hex payload) manifest.sha256 then
          ⟨.failed, some "MANIFEST_SHA_MISMATCH", byNo.keys.length⟩
        else ⟨.complete, none, byNo.keys.length⟩

/-! ## The chunks placed -/

variable {manifest : EvidenceManifestSpec} {chunks : List EvidenceChunkSpec}
  {byNo : Dict ℤ EvidenceChunkSpec} {c : EvidenceChunkSpec}

structure Fits (manifest : EvidenceManifestSpec) (c : EvidenceChunkSpec) : Prop where
  low : 0 ≤ c.chunkNo
  high : c.chunkNo < manifest.chunkCount
  consistent : chunkIsSelfConsistent c
  declared : equalsOrdinalIgnoreCase c.sha256 (manifest.chunkSha256.getD c.chunkNo.toNat "")

/-- The outcome of the loop over `chunks`. -/
structure Placed (manifest : EvidenceManifestSpec) (chunks : List EvidenceChunkSpec)
    (byNo : Dict ℤ EvidenceChunkSpec) : Prop where
  fits : ∀ no c, byNo.get? no = some c → c ∈ chunks ∧ c.chunkNo = no ∧ Fits manifest c
  covers : ∀ c ∈ chunks, ∃ first, byNo.get? c.chunkNo = some first ∧ first.payload = c.payload

theorem placed_nil : Placed manifest [] Dict.empty where
  fits no c h := by simp at h
  covers c h := absurd h List.not_mem_nil

theorem Placed.place (h : Placed manifest chunks byNo) {next : Dict ℤ EvidenceChunkSpec}
    (hplace : place manifest byNo c = .ok next) : Placed manifest (chunks ++ [c]) next := by
  unfold EvidenceAssembly.place at hplace
  split at hplace
  · exact absurd hplace (by simp)
  · rename_i hrange
    push Not at hrange
    split at hplace
    · rename_i existing hexisting
      split at hplace
      · exact absurd hplace (by simp)
      · rename_i hsame
        obtain rfl := Except.ok.inj hplace
        refine ⟨fun no d hd => ?_, fun d hd => ?_⟩
        · obtain ⟨hmem, hrest⟩ := h.fits no d hd
          exact ⟨List.mem_append_left _ hmem, hrest⟩
        · rcases List.mem_append.mp hd with hd | hd
          · exact h.covers d hd
          · rw [List.mem_singleton.mp hd]
            exact ⟨existing, hexisting, not_not.mp hsame⟩
    · rename_i hnone
      split at hplace
      · exact absurd hplace (by simp)
      · rename_i hself
        split at hplace
        · exact absurd hplace (by simp)
        · rename_i hdeclared
          obtain rfl := Except.ok.inj hplace
          refine ⟨fun no d hd => ?_, fun d hd => ?_⟩
          · rw [Dict.get?_set] at hd
            split at hd
            · rename_i hno
              obtain rfl := Option.some.inj hd
              exact ⟨List.mem_append_right _ List.mem_cons_self, hno.symm,
                hrange.1, hrange.2, not_not.mp hself, not_not.mp hdeclared⟩
            · obtain ⟨hmem, hrest⟩ := h.fits no d hd
              exact ⟨List.mem_append_left _ hmem, hrest⟩
          · rcases List.mem_append.mp hd with hd | hd
            · obtain ⟨first, hfirst, hpayload⟩ := h.covers d hd
              refine ⟨first, ?_, hpayload⟩
              rw [Dict.get?_set, if_neg, hfirst]
              rintro heq
              rw [heq, hnone] at hfirst
              exact absurd hfirst (by simp)
            · rw [List.mem_singleton.mp hd]
              exact ⟨c, Dict.get?_set_self _ _ _, rfl⟩

theorem foldlM_concat (chunks : List EvidenceChunkSpec) (c : EvidenceChunkSpec) :
    (chunks ++ [c]).foldlM (EvidenceAssembly.place manifest) Dict.empty =
      (chunks.foldlM (EvidenceAssembly.place manifest) Dict.empty).bind
        fun byNo => EvidenceAssembly.place manifest byNo c := by
  rw [List.foldlM_append]
  simp only [List.foldlM_cons, List.foldlM_nil, bind_pure]
  rfl

theorem placed_of_fold (h : chunks.foldlM (place manifest) Dict.empty = .ok byNo) :
    Placed manifest chunks byNo := by
  induction chunks using List.reverseRecOn generalizing byNo with
  | nil =>
    obtain rfl := Except.ok.inj h
    exact placed_nil
  | append_singleton chunks c ih =>
    rw [foldlM_concat] at h
    cases hfold : chunks.foldlM (EvidenceAssembly.place manifest) Dict.empty with
    | error reason =>
      rw [hfold] at h
      exact absurd h (by simp [Except.bind])
    | ok before =>
      rw [hfold] at h
      exact (ih hfold).place h

theorem exists_fold (hfits : ∀ c ∈ chunks, Fits manifest c)
    (hagree : ∀ c ∈ chunks, ∀ d ∈ chunks, c.chunkNo = d.chunkNo → c.payload = d.payload) :
    ∃ byNo, chunks.foldlM (place manifest) Dict.empty = .ok byNo := by
  induction chunks using List.reverseRecOn with
  | nil => exact ⟨Dict.empty, rfl⟩
  | append_singleton chunks c ih =>
    obtain ⟨before, hfold⟩ := ih (fun d hd => hfits d (List.mem_append_left _ hd))
      (fun d hd e he => hagree d (List.mem_append_left _ hd) e (List.mem_append_left _ he))
    have hc : c ∈ chunks ++ [c] := List.mem_append_right _ List.mem_cons_self
    obtain ⟨hlow, hhigh, hself, hdeclared⟩ := hfits c hc
    rw [foldlM_concat, hfold]
    simp only [Except.bind]
    unfold EvidenceAssembly.place
    rw [if_neg (by omega)]
    split
    · rename_i existing hexisting
      obtain ⟨hmem, hno, -⟩ := (placed_of_fold hfold).fits _ _ hexisting
      rw [if_neg (not_not_intro (hagree existing (List.mem_append_left _ hmem) c hc hno))]
      exact ⟨before, rfl⟩
    · rw [if_neg (not_not_intro hself), if_neg (not_not_intro hdeclared)]
      exact ⟨_, rfl⟩

theorem mem_numbers {n no : ℤ} :
    no ∈ (List.range n.toNat).map (fun i : ℕ => (i : ℤ)) ↔ 0 ≤ no ∧ no < n := by
  simp only [List.mem_map, List.mem_range]
  constructor
  · rintro ⟨i, hi, rfl⟩
    omega
  · rintro ⟨hlow, hhigh⟩
    exact ⟨no.toNat, by omega, by omega⟩

theorem nodup_numbers (n : ℤ) : ((List.range n.toNat).map (fun i : ℕ => (i : ℤ))).Nodup :=
  List.nodup_range.map Nat.cast_injective

theorem Placed.count_le_iff (h : Placed manifest chunks byNo) :
    manifest.chunkCount ≤ (byNo.keys.length : ℤ) ↔
      ∀ no, 0 ≤ no → no < manifest.chunkCount → ∃ c, byNo.get? no = some c := by
  have hsub : byNo.keys ⊆ (List.range manifest.chunkCount.toNat).map (fun i : ℕ => (i : ℤ)) := by
    intro no hno
    obtain ⟨c, hc⟩ := Option.isSome_iff_exists.mp (Dict.mem_keys_iff_isSome.mp hno)
    obtain ⟨-, rfl, hfits⟩ := h.fits no c hc
    exact mem_numbers.mpr ⟨hfits.low, hfits.high⟩
  have hlen : ((List.range manifest.chunkCount.toNat).map (fun i : ℕ => (i : ℤ))).length =
      manifest.chunkCount.toNat := by
    rw [List.length_map, List.length_range]
  constructor
  · intro hcount no hlow hhigh
    have hperm := (List.subperm_of_subset byNo.keys_nodup hsub).perm_of_length_le (by omega)
    have hmem := hperm.mem_iff.mpr (mem_numbers.mpr ⟨hlow, hhigh⟩)
    exact Option.isSome_iff_exists.mp (Dict.mem_keys_iff_isSome.mp hmem)
  · intro hall
    have hback : (List.range manifest.chunkCount.toNat).map (fun i : ℕ => (i : ℤ)) ⊆ byNo.keys := by
      intro no hno
      obtain ⟨hlow, hhigh⟩ := mem_numbers.mp hno
      obtain ⟨c, hc⟩ := hall no hlow hhigh
      exact Dict.mem_keys_iff_isSome.mpr (hc ▸ rfl)
    have hle := (List.subperm_of_subset (nodup_numbers _) hback).length_le
    omega

theorem evaluate_complete_iff : (evaluate manifest chunks).readiness = .complete ↔
    0 < manifest.chunkCount ∧ (manifest.chunkSha256.length : ℤ) = manifest.chunkCount ∧
      ∃ byNo, chunks.foldlM (place manifest) Dict.empty = .ok byNo ∧
        manifest.chunkCount ≤ byNo.keys.length ∧
        ((joined byNo manifest.chunkCount.toNat).length : ℤ) = manifest.totalBytes ∧
        equalsOrdinalIgnoreCase (sha256Hex (joined byNo manifest.chunkCount.toNat))
          manifest.sha256 := by
  unfold evaluate
  split
  · rename_i hcount
    exact ⟨fun h => (by cases h), fun h => absurd h.1 (by omega)⟩
  · rename_i hcount
    split
    · rename_i hlen
      exact ⟨fun h => (by cases h), fun h => absurd h.2.1 hlen⟩
    · rename_i hlen
      cases hfold : chunks.foldlM (place manifest) Dict.empty with
      | error reason => simp
      | ok byNo =>
        simp only [Except.ok.injEq, exists_eq_left']
        split
        · rename_i hmissing
          exact ⟨fun h => (by cases h), fun h => absurd h.2.2.1 (by omega)⟩
        · rename_i hmissing
          split
          · rename_i htotal
            exact ⟨fun h => (by cases h), fun h => absurd h.2.2.2.1 htotal⟩
          · rename_i htotal
            split
            · rename_i hsha
              exact ⟨fun h => (by cases h), fun h => absurd h.2.2.2.2 hsha⟩
            · rename_i hsha
              exact ⟨fun _ => ⟨by omega, not_not.mp hlen, by omega, not_not.mp htotal,
                not_not.mp hsha⟩, fun _ => rfl⟩

end EvidenceAssembly

end OpenBridge.Evidence
