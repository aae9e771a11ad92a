import OpenBridge.Evidence.EvidenceAssembly
import OpenBridge.Foundation.Machine
import Mathlib.Data.List.Sort

/-!
# Evidence: blob store

The manifest row and the chunk rows of one evidence id.  A chunk row refers to its manifest row and
goes with it, so the two tables are one optional value.
-/

namespace OpenBridge.Evidence

open OpenBridge.Foundation

inductive Readiness where
  | pending
  | complete
  | failed
  | expired
  deriving DecidableEq

inductive RetentionClass where
  | transient
  | standard
  | episode
  | pinned
  deriving DecidableEq

/-- The manifest row; `declared` are the columns of its declaration. -/
structure ManifestRow where
  declared : EvidenceManifestSpec
  readiness : Readiness
  readinessReason : Option String
  retentionClass : RetentionClass
  pinned : Bool
  deriving DecidableEq

structure ChunkRow where
  sha256 : String
  payload : List UInt8
  deriving DecidableEq

structure Dataset where
  manifest : ManifestRow
  chunks : Dict ℤ ChunkRow
  deriving DecidableEq

structure Provenance where
  analysisRunId : Option String
  purpose : Option String

structure IncomingManifest where
  spec : EvidenceManifestSpec
  provenance : Option Provenance

namespace EvidenceBlobStore

/-- An artifact that a reconstruction or a replay produced is `STANDARD`. -/
def retentionClassOf (m : IncomingManifest) : RetentionClass :=
  match m.provenance with
  | none => .transient
  | some p =>
      let requested := p.analysisRunId.getD "" ≠ "" ∨
        (p.purpose.getD "" ≠ "" ∧ p.purpose ≠ some "LIVE")
      if requested then .standard else .transient

def replaces (row : ManifestRow) (reconstruct : Bool) (sha256 : String) : Bool :=
  row.readiness = .expired ∨ row.readiness = .failed ∨
    (reconstruct ∧ (row.readiness = .pending ∨ row.readiness = .complete) ∧ row.pinned = false ∧
      row.declared.sha256 ≠ sha256)

def upsertManifest (m : IncomingManifest) (store : Option Dataset) : Option Dataset :=
  let retentionClass := retentionClassOf m
  let reconstruct : Bool := retentionClass = .standard
  match store with
  | none => some ⟨⟨m.spec, .pending, none, retentionClass, false⟩, Dict.empty⟩
  | some d =>
      if replaces d.manifest reconstruct m.spec.sha256 then
        some
          { manifest :=
              { declared := m.spec, readiness := .pending, readinessReason := none,
                retentionClass :=
                  if ¬ reconstruct then d.manifest.retentionClass
                  else if d.manifest.retentionClass = .episode ∨
                    d.manifest.retentionClass = .pinned then d.manifest.retentionClass
                  else .standard,
                pinned := d.manifest.pinned },
            chunks := Dict.empty }
      else some d

def putChunk (c : EvidenceChunkSpec) (store : Option Dataset) : Option Dataset :=
  store.map fun d =>
    if d.chunks.contains c.chunkNo then d
    else { d with chunks := d.chunks.set c.chunkNo ⟨c.sha256, c.payload⟩ }

def countChunks (store : Option Dataset) : ℕ :=
  match store with
  | none => 0
  | some d => d.chunks.keys.length

def getChunks (store : Option Dataset) : List EvidenceChunkSpec :=
  match store with
  | none => []
  | some d =>
      (d.chunks.entries.map fun e => (⟨e.1, e.2.sha256, e.2.payload⟩ : EvidenceChunkSpec))
        |>.insertionSort fun a b => a.chunkNo ≤ b.chunkNo

def setReadiness (readiness : Readiness) (reason : Option String) (store : Option Dataset) :
    Option Dataset :=
  store.map fun d =>
    if d.manifest.readiness = .expired then d
    else { d with manifest :=
      { d.manifest with readiness := readiness, readinessReason := reason } }

end EvidenceBlobStore

namespace EvidenceRetentionTiers

def liveTransient (row : ManifestRow) : Bool :=
  row.retentionClass = .transient ∧ row.pinned = false ∧ row.readiness ≠ .expired

def purgeTransient (store : Option Dataset) : Option Dataset :=
  store.filter fun d => ¬ liveTransient d.manifest

def expire (recordClass : RetentionClass) (store : Option Dataset) : Option Dataset :=
  store.map fun d =>
    if d.manifest.retentionClass = recordClass ∧ d.manifest.pinned = false ∧
        d.manifest.readiness ≠ .expired then
      { manifest :=
          { d.manifest with readiness := .expired, readinessReason := some "RETENTION" },
        chunks := Dict.empty }
    else d

def purgeExpired (recordClass : RetentionClass) (store : Option Dataset) : Option Dataset :=
  store.filter fun d => ¬ (d.manifest.retentionClass = recordClass ∧ d.manifest.pinned = false ∧
    d.manifest.readiness = .expired)

/-- A captured run keeps its transient rows as `EPISODE`. -/
def promote (store : Option Dataset) : Option Dataset :=
  store.map fun d =>
    if d.manifest.retentionClass = .transient ∧ d.manifest.pinned = false then
      { d with manifest := { d.manifest with retentionClass := .episode } }
    else d

def pin (store : Option Dataset) : Option Dataset :=
  store.map fun d =>
    { d with manifest := { d.manifest with pinned := true, retentionClass := .pinned } }

end EvidenceRetentionTiers

namespace CplmEvidenceConsumerService

open EvidenceBlobStore EvidenceRetentionTiers

inductive Evaluation where
  | read (m : EvidenceManifestSpec)
  | counted (m : EvidenceManifestSpec)
  | loaded (m : EvidenceManifestSpec) (chunks : List EvidenceChunkSpec)
  deriving DecidableEq

structure State where
  store : Option Dataset
  evaluations : Dict ℕ Evaluation

def start : State := ⟨none, Dict.empty⟩

/-- The transactions of the consumer and of the sweeper. -/
inductive Event where
  | manifest (m : IncomingManifest)
  | chunk (c : EvidenceChunkSpec)
  | getManifest (evaluation : ℕ)
  | countChunks (evaluation : ℕ)
  | getChunks (evaluation : ℕ)
  | setReadiness (evaluation : ℕ)
  | purgeTransient
  | expire (recordClass : RetentionClass)
  | purgeExpired (recordClass : RetentionClass)
  | promote
  | pin

/-- `EVIDENCE_CHUNK`: a chunk that was damaged in transit fails the manifest. -/
def applyChunk (c : EvidenceChunkSpec) (store : Option Dataset) : Option Dataset :=
  if ¬ EvidenceAssembly.chunkIsSelfConsistent c then
    setReadiness .failed (some ("CHUNK_CORRUPT:" ++ toString c.chunkNo)) store
  else putChunk c store

/-- `EvaluateAsync` reads the manifest: only one that is pending is judged. -/
def beginEvaluation (k : ℕ) (s : State) : State :=
  match s.store with
  | some d =>
      if d.manifest.readiness = .pending then
        { s with evaluations := s.evaluations.set k (.read d.manifest.declared) }
      else { s with evaluations := s.evaluations.erase k }
  | none => { s with evaluations := s.evaluations.erase k }

/-- `EvaluateAsync` counts the chunks, and returns while some are missing. -/
def countEvaluation (k : ℕ) (s : State) : State :=
  match s.evaluations.get? k with
  | some (.read m) =>
      if (EvidenceBlobStore.countChunks s.store : ℤ) < m.chunkCount then
        { s with evaluations := s.evaluations.erase k }
      else { s with evaluations := s.evaluations.set k (.counted m) }
  | _ => s

/-- `EvaluateAsync` reads the chunks. -/
def loadEvaluation (k : ℕ) (s : State) : State :=
  match s.evaluations.get? k with
  | some (.counted m) =>
      { s with
        evaluations := s.evaluations.set k (.loaded m (EvidenceBlobStore.getChunks s.store)) }
  | _ => s

/-- `EvaluateAsync` writes the verdict on what it has read. -/
def endEvaluation (k : ℕ) (s : State) : State :=
  match s.evaluations.get? k with
  | some (.loaded m chunks) =>
      let verdict := EvidenceAssembly.evaluate m chunks
      { store :=
          match verdict.readiness with
          | .complete => EvidenceBlobStore.setReadiness .complete none s.store
          | .failed => EvidenceBlobStore.setReadiness .failed verdict.reason s.store
          | .pending => s.store
        evaluations := s.evaluations.erase k }
  | _ => s

/-- One transaction; nothing is emitted. -/
def step (s : State) : Event → State × List Empty
  | .manifest m => ({ s with store := upsertManifest m s.store }, [])
  | .chunk c => ({ s with store := applyChunk c s.store }, [])
  | .getManifest k => (beginEvaluation k s, [])
  | .countChunks k => (countEvaluation k s, [])
  | .getChunks k => (loadEvaluation k s, [])
  | .setReadiness k => (endEvaluation k s, [])
  | .purgeTransient => ({ s with store := EvidenceRetentionTiers.purgeTransient s.store }, [])
  | .expire recordClass => ({ s with store := EvidenceRetentionTiers.expire recordClass s.store }, [])
  | .purgeExpired recordClass =>
      ({ s with store := EvidenceRetentionTiers.purgeExpired recordClass s.store }, [])
  | .promote => ({ s with store := EvidenceRetentionTiers.promote s.store }, [])
  | .pin => ({ s with store := EvidenceRetentionTiers.pin s.store }, [])

def after (es : List Event) : State := Machine.stateAfter step start es

theorem after_concat (es : List Event) (e : Event) : after (es ++ [e]) = (step (after es) e).1 :=
  Machine.stateAfter_concat step start es e

end CplmEvidenceConsumerService

end OpenBridge.Evidence
