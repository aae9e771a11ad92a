import OpenBridge.Evidence.EvidenceBlobStore
import OpenBridge.Foundation.Guid

/-!
# Evidence: retention

The manifests of all evidence ids, the runs that episodes have captured, the investigations, and
`EvidenceRetentionSweeper.SweepOnceAsync`, whose statements are steps of their own.  A statement of the
sweep passes over the rows that other transactions have locked.  Times are microseconds.
-/

namespace OpenBridge.Evidence

open OpenBridge.Foundation

namespace EvidenceRetention

open EvidenceBlobStore EvidenceRetentionTiers

/-- A row of `analytics.evidence_manifest`, with its chunks. -/
structure EvidenceRow where
  evidenceId : Guid
  methodRunId : Guid
  createdAt : ℤ
  dataset : Dataset
  deriving DecidableEq

/-- A row of `analytics.cplm_episode_capture`. -/
structure Capture where
  episodeId : ℕ
  methodRunId : Guid
  capturedAt : ℤ
  deriving DecidableEq

/-- The columns of `analytics.cplm_event_frames` that retention reads. -/
structure Frame where
  id : ℕ
  closedAt : Option ℤ
  captureCount : ℕ
  deriving DecidableEq

inductive CaptureKind where
  | open_
  | escalate
  | close
  deriving DecidableEq

/-- A request for an investigation: what was reported of its ids, and whether its reference is there. -/
structure Inquiry where
  evidenceIds : List Guid
  missing : List Guid
  created : Bool
  deriving DecidableEq

inductive Sweep where
  | idle
  | promote
  | purgeByAge
  | readBudget
  | purgeOverBudget (used : ℤ)
  | readPolicies
  | expire (recordClass : RetentionClass) (days : ℤ) (rest : List (RetentionClass × ℤ))
  | purgeExpired (recordClass : RetentionClass) (days : ℤ) (rest : List (RetentionClass × ℤ))
  deriving DecidableEq

structure Retained where
  rows : List EvidenceRow
  captures : List Capture := []
  frames : List Frame := []
  inquiries : List Inquiry := []
  sweep : Sweep := .idle

structure Settings where
  transientHours : ℤ
  transientBudgetBytes : ℤ
  expiredGraceDays : ℤ
  batchSize : ℕ
  deriving DecidableEq

structure EvidenceRecord where
  evidenceId : Guid
  methodRunId : Guid
  manifest : IncomingManifest

/-- A step: a transaction of the consumer, of the frame service or of an investigation, or a statement
of the sweep. -/
inductive Event where
  | manifest (record : EvidenceRecord) (now : ℤ)
  | openFrame (id : ℕ)
  | closeFrame (id : ℕ) (now : ℤ)
  | capture (frameId : ℕ) (kind : CaptureKind) (runIds : List Guid) (now : ℤ)
  | missingEvidence (evidenceIds : List Guid)
  | create (k : ℕ)
  | sweep (now : ℤ) (locked : List Guid) (policies : List (RetentionClass × ℤ))
  | abortSweep

/-- `make_interval`. -/
def hours (n : ℤ) : ℤ := n * 3600000000

/-- `make_interval`. -/
def days (n : ℤ) : ℤ := n * 86400000000

def manifestRowBytes : ℤ := 1200

def EvidenceRow.bytes (r : EvidenceRow) : ℤ :=
  r.dataset.manifest.declared.totalBytes + manifestRowBytes

def change (rows : List EvidenceRow) (ids : List Guid) (f : Option Dataset → Option Dataset) :
    List EvidenceRow :=
  rows.filterMap fun r =>
    if r.evidenceId ∈ ids then (f (some r.dataset)).map fun d => { r with dataset := d } else some r

def oldest (rows : List EvidenceRow) (p : EvidenceRow → Bool) (locked : List Guid) (batch : ℕ) :
    List EvidenceRow :=
  ((rows.filter fun r => p r ∧ r.evidenceId ∉ locked).insertionSort
    fun a b => a.createdAt ≤ b.createdAt).take batch

def idsOf (rows : List EvidenceRow) : List Guid := rows.map EvidenceRow.evidenceId

def upsertManifestAsync (rows : List EvidenceRow) (record : EvidenceRecord) (now : ℤ) :
    List EvidenceRow :=
  if record.evidenceId ∈ idsOf rows then
    rows.map fun r =>
      if r.evidenceId = record.evidenceId ∧ replaces r.dataset.manifest
          (retentionClassOf record.manifest = .standard) record.manifest.spec.sha256 = true then
        { r with
          createdAt := now
          dataset := (upsertManifest record.manifest (some r.dataset)).getD r.dataset }
      else r
  else
    match upsertManifest record.manifest none with
    | some d => rows ++ [⟨record.evidenceId, record.methodRunId, now, d⟩]
    | none => rows

section Steps

variable (settings : Settings) (captureMax : ℕ)

def captureAsync (s : Retained) (frameId : ℕ) (kind : CaptureKind) (runIds : List Guid) (now : ℤ) :
    Retained :=
  let runs := runIds.dedup
  if runs = [] then s
  else if ∃ f ∈ s.frames, f.id = frameId ∧ (kind = .close ∨ f.captureCount < captureMax) then
    { s with
      frames := s.frames.map fun f =>
        if f.id = frameId then { f with captureCount := f.captureCount + 1 } else f
      captures := s.captures ++ (runs.filter fun run =>
        ∀ c ∈ s.captures, ¬ (c.episodeId = frameId ∧ c.methodRunId = run)).map fun run =>
          ⟨frameId, run, now⟩
      rows := change s.rows (idsOf (s.rows.filter fun r => r.methodRunId ∈ runs))
        EvidenceRetentionTiers.promote }
  else s

/-- `PromoteSql`. -/
def promoteCaptured (s : Retained) (now : ℤ) : List EvidenceRow :=
  change s.rows (idsOf (s.rows.filter fun r => ∃ c ∈ s.captures, c.methodRunId = r.methodRunId ∧
    now - hours (max 1 (settings.transientHours + 1)) < c.capturedAt)) EvidenceRetentionTiers.promote

/-- `EpisodeStillProtected`, for a row. -/
def episodeStillProtected (s : Retained) (now classDays : ℤ) (r : EvidenceRow) : Bool :=
  ∃ c ∈ s.captures, ∃ f ∈ s.frames, f.id = c.episodeId ∧ c.methodRunId = r.methodRunId ∧
    (f.closedAt = none ∨ f.closedAt.any fun t => now - days classDays < t)

/-- The rows that `ExpireAsync` selects. -/
def due (s : Retained) (recordClass : RetentionClass) (classDays now : ℤ) (r : EvidenceRow) : Bool :=
  r.dataset.manifest.retentionClass = recordClass ∧ r.dataset.manifest.pinned = false ∧
    r.dataset.manifest.readiness ≠ .expired ∧ r.createdAt < now - days classDays ∧
    (recordClass = .episode → episodeStillProtected s now classDays r = false)

/-- The rows that `PurgeExpiredAsync` selects. -/
def pastGrace (recordClass : RetentionClass) (classDays now : ℤ) (r : EvidenceRow) : Bool :=
  r.dataset.manifest.retentionClass = recordClass ∧ r.dataset.manifest.pinned = false ∧
    r.dataset.manifest.readiness = .expired ∧
    r.createdAt < now - days (classDays + max 0 settings.expiredGraceDays)

/-- The classes of `retention_policy` that a sweep goes through. -/
def evidencePolicies (policies : List (RetentionClass × ℤ)) : List (RetentionClass × ℤ) :=
  let evidence := policies.filter fun p => p.1 ≠ .transient
  if ∃ p ∈ evidence, p.1 = .episode then evidence else evidence ++ [(.episode, 90)]

def nextClass : List (RetentionClass × ℤ) → Sweep
  | [] => .idle
  | (recordClass, classDays) :: rest => .expire recordClass classDays rest

/-- The next statement of a sweep. -/
def sweepStep (s : Retained) (now : ℤ) (locked : List Guid) (policies : List (RetentionClass × ℤ)) :
    Retained :=
  match s.sweep with
  | .idle => { s with sweep := .promote }
  | .promote => { s with rows := promoteCaptured settings s now, sweep := .purgeByAge }
  | .purgeByAge =>
      let batch := min (max 1 settings.batchSize) 5000
      let taken := oldest s.rows (fun r => liveTransient r.dataset.manifest ∧
        r.createdAt < now - hours settings.transientHours) locked batch
      { s with
        rows := change s.rows (idsOf taken) purgeTransient
        sweep := if taken.length < batch then .readBudget else .purgeByAge }
  | .readBudget =>
      { s with
        sweep := .purgeOverBudget ((s.rows.filter fun r => liveTransient r.dataset.manifest ∧
          now - hours settings.transientHours ≤ r.createdAt).map EvidenceRow.bytes).sum }
  | .purgeOverBudget used =>
      let taken := oldest s.rows (fun r => liveTransient r.dataset.manifest) locked
        (min (max 1 settings.batchSize) 2000)
      if used ≤ settings.transientBudgetBytes ∨ taken = [] then { s with sweep := .readPolicies }
      else
        { s with
          rows := change s.rows (idsOf taken) purgeTransient
          sweep := .purgeOverBudget (used - (taken.map EvidenceRow.bytes).sum) }
  | .readPolicies => { s with sweep := nextClass (evidencePolicies policies) }
  | .expire recordClass classDays rest =>
      let batch := max 1 settings.batchSize
      let taken := oldest s.rows (due s recordClass classDays now) locked batch
      { s with
        rows := change s.rows (idsOf taken) (EvidenceRetentionTiers.expire recordClass)
        sweep := if taken.length < batch then .purgeExpired recordClass classDays rest
          else .expire recordClass classDays rest }
  | .purgeExpired recordClass classDays rest =>
      let batch := max 1 settings.batchSize
      let taken := oldest s.rows (pastGrace settings recordClass classDays now) locked batch
      { s with
        rows := change s.rows (idsOf taken) (EvidenceRetentionTiers.purgeExpired recordClass)
        sweep := if taken.length < batch then nextClass rest
          else .purgeExpired recordClass classDays rest }

def missingEvidenceAsync (rows : List EvidenceRow) (evidenceIds : List Guid) : List Guid :=
  evidenceIds.dedup.filter fun id => id ∉ idsOf rows

/-- One step. -/
def step (s : Retained) : Event → Retained × List Empty
  | .manifest record now => ({ s with rows := upsertManifestAsync s.rows record now }, [])
  | .openFrame id =>
      if ∃ f ∈ s.frames, f.id = id then (s, [])
      else ({ s with frames := s.frames ++ [⟨id, none, 0⟩] }, [])
  | .closeFrame id now =>
      ({ s with
        frames := s.frames.map fun f => if f.id = id then { f with closedAt := some now } else f }, [])
  | .capture frameId kind runIds now => (captureAsync captureMax s frameId kind runIds now, [])
  | .missingEvidence evidenceIds =>
      ({ s with
        inquiries := s.inquiries ++
          [⟨evidenceIds, missingEvidenceAsync s.rows evidenceIds, false⟩] }, [])
  | .create k =>
      match s.inquiries[k]? with
      | some ⟨evidenceIds, [], false⟩ =>
          ({ s with
            rows := change s.rows evidenceIds EvidenceRetentionTiers.pin
            inquiries := s.inquiries.set k ⟨evidenceIds, [], true⟩ }, [])
      | _ => (s, [])
  | .sweep now locked policies => (sweepStep settings s now locked policies, [])
  | .abortSweep => ({ s with sweep := .idle }, [])

def after (s : Retained) (run : List Event) : Retained :=
  Machine.stateAfter (step settings captureMax) s run

end Steps

end EvidenceRetention

end OpenBridge.Evidence
