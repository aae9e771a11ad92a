import OpenBridge.GateConfig.GateConfigBundle

/-!
# Gate configuration: the control messages at a worker

`BundleBroadcastHandler`: `PREPARE` verifies, validates and stores a bundle, `APPLY` puts a stored
bundle on the active list of its scope.  Each of the three families of string keys of the broadcast
state is a field here.
-/

namespace OpenBridge.GateConfig

open OpenBridge.Foundation

structure ActiveEntry where
  hash : String
  bundleId : String
  effectiveFromMs : ℤ
  epoch : ℤ
  changeClass : String
  deploymentId : String
  deriving DecidableEq, Inhabited

structure ActiveConfigState where
  prepared : Dict String Json
  active : Dict String (List ActiveEntry)
  epoch : ℤ

namespace ActiveConfigState

def empty : ActiveConfigState := ⟨Dict.empty, Dict.empty, 0⟩

instance : Inhabited ActiveConfigState := ⟨empty⟩

def entries (s : ActiveConfigState) (scope : String) : List ActiveEntry :=
  (s.active.get? scope).getD []

end ActiveConfigState

structure ConfigAck where
  deploymentId : String
  bundleId : String
  phase : String
  bundleHash : String
  reason : Option String
  deriving DecidableEq

namespace BundleBroadcastHandler

def recordKind : String := "GATE_CONFIG_BUNDLE"

/-- `ACTIVE_HISTORY`. -/
def activeHistory : ℕ := 4

def isBundleRecord (root : Json) : Bool :=
  root.isObject && (root.get "record_kind").asText "" = recordKind

/-- `verify`: the reason to refuse an unsigned message, if there is one. -/
def verify (message : Json) (hmacKey : Option String) : Except String (Option String) :=
  match hmacKey.filter (· ≠ "") with
  | none =>
      .ok (some
        "UNSIGNED: this worker has no gate-config key configured (CPLM_GATE_CONFIG_KEY)")
  | some key =>
      let sig := (message.get "signature").asText ""
      if sig = "" then .ok (some "UNSIGNED: the message carries no signature")
      else do
        let expected ← CanonicalJson.signature ((message.get "bundle").getD .null) key
        .ok (if toLowerInvariant expected = toLowerInvariant sig then none
          else some "UNSIGNED: the signature does not verify with this worker's key")

def nextEpoch (epoch : ℤ) (changeClass : String) : ℤ :=
  if changeClass = "STATE_BOUNDARY" then Int.bmod (epoch + 1) (2 ^ 32) else epoch

def activate (list : List ActiveEntry) (entry : ActiveEntry) : List ActiveEntry :=
  let next := list.filter (fun e => e.hash ≠ entry.hash) ++ [entry]
  next.drop (next.length - activeHistory)

/-- The state after an accepted `APPLY`. -/
def applyBundle (s : ActiveConfigState) (b : GateConfigBundle) (deploymentId : String) :
    ActiveConfigState :=
  let epoch := nextEpoch s.epoch b.changeClass
  { s with
    epoch := epoch
    active := s.active.set b.scopeKey (activate (s.entries b.scopeKey)
      ⟨b.hash, b.bundleId, b.effectiveFromMs, epoch, b.changeClass, deploymentId⟩) }

/-- `handle`: one control message, read from its text or with the reader's error.  The next state
and the answers; an error here is an exception that stops the worker. -/
def handle (jobName : String) (hmacKey : Option String) (json : Except String Json)
    (s : ActiveConfigState) : Except String (ActiveConfigState × List ConfigAck) :=
  match json with
  | .error e => .ok (s, [⟨"", "", "PREPARE", "", some ("PARSE_ERROR: " ++ e)⟩])
  | .ok root =>
    if ¬ isBundleRecord root then .ok (s, [])
    else
      let phase := (root.get "phase").asText "PREPARE"
      let deploymentId := (root.get "deployment_id").asText ""
      let bundleId := (root.get "bundle_id").asText ""
      let answer (hash : String) (reason : Option String) : List ConfigAck :=
        [⟨deploymentId, bundleId, phase, hash, reason⟩]
      match GateConfigBundle.parse root with
      | .error e => .ok (s, answer ((root.get "hash").asText "") (some ("PARSE_ERROR: " ++ e)))
      | .ok b => do
        match ← verify root hmacKey with
        | some unsigned => .ok (s, answer b.hash (some unsigned))
        | none =>
          if phase = "PREPARE" then
            let reasons ← b.validate jobName
            if reasons ≠ [] then .ok (s, answer b.hash (some (String.intercalate "; " reasons)))
            else
              match root.get "bundle" with
              | none => .error "NullPointerException"
              | some doc => .ok ({ s with prepared := s.prepared.set b.hash doc }, answer b.hash none)
          else if phase = "APPLY" then
            if s.prepared.contains b.hash then .ok (applyBundle s b deploymentId, answer b.hash none)
            else
              .ok (s, answer b.hash (some ("NOT_PREPARED: no PREPARE of " ++
                GateConfigBundle.head b.hash ++ " was acknowledged by this worker")))
          else .ok (s, answer b.hash (some ("UNKNOWN_PHASE: " ++ phase)))

end BundleBroadcastHandler

/-!
# Gate configuration: the bundle that governs a loop at a decision time

`EffectiveBundleSelector.select`: the loop's own bundle over its profile's over the site's, and
within a scope the newest whose effective time has been reached.
-/

structure Selected where
  bundle : Option GateConfigBundle
  epoch : ℤ
  effectiveFromMs : ℤ
  changeClass : Option String
  validUntilMs : ℤ
  deriving Inhabited

/-- The selection without its validity: the bundle, its epoch, effective time and change class. -/
def Selected.governs (s : Selected) : Option GateConfigBundle × ℤ × ℤ × Option String :=
  (s.bundle, s.epoch, s.effectiveFromMs, s.changeClass)

namespace EffectiveBundleSelector

/-- `Long.MAX_VALUE`. -/
def forever : ℤ := 2 ^ 63 - 1

def scopes (site : String) (loopId gateProfileId : Option String) : List String :=
  [GateConfigBundle.scopeKeyOf "LOOP" site loopId,
    GateConfigBundle.scopeKeyOf "PROFILE" site gateProfileId,
    GateConfigBundle.scopeKeyOf "SITE" site none]

def better (t : ℤ) (best : Option ActiveEntry) (e : ActiveEntry) : Option ActiveEntry :=
  if t < e.effectiveFromMs then best
  else if best.all fun b => b.effectiveFromMs ≤ e.effectiveFromMs then some e
  else best

def governing (entries : List ActiveEntry) (t : ℤ) : Option ActiveEntry :=
  entries.foldl (better t) none

def nextEffective (entries : List ActiveEntry) (t bound : ℤ) : ℤ :=
  entries.foldl (fun v e => if t < e.effectiveFromMs then min v e.effectiveFromMs else v) bound

abbrev ParsedBundles := Dict String GateConfigBundle

def content (s : ActiveConfigState) (hash : String) (parsed : ParsedBundles) :
    Except String (Option GateConfigBundle × ParsedBundles) :=
  match parsed.get? hash with
  | some b => .ok (some b, parsed)
  | none =>
      match s.prepared.get? hash with
      | none => .ok (none, parsed)
      | some doc => do
          let b ← GateConfigBundle.parse doc
          .ok (some b, parsed.set hash b)

def selectedOf (b : GateConfigBundle) (e : ActiveEntry) : Selected :=
  ⟨some b, e.epoch, e.effectiveFromMs, some e.changeClass, forever⟩

def walk (s : ActiveConfigState) (t : ℤ) :
    List String → ℤ × Option Selected × ParsedBundles →
      Except String (ℤ × Option Selected × ParsedBundles)
  | [], acc => .ok acc
  | scope :: rest, (bound, chosen, parsed) =>
      match s.active.get? scope with
      | none => walk s t rest (bound, chosen, parsed)
      | some entries =>
          let bound := nextEffective entries t bound
          match governing entries t, chosen with
          | some best, none => do
              let (b, parsed) ← content s best.hash parsed
              walk s t rest (bound, b.map (selectedOf · best), parsed)
          | _, chosen => walk s t rest (bound, chosen, parsed)

/-- `select`: the governing bundle of a loop; none when no active bundle covers the loop yet. -/
def select (s : ActiveConfigState) (site : String) (loopId gateProfileId : Option String) (t : ℤ)
    (parsed : ParsedBundles) : Except String (Selected × ParsedBundles) := do
  let (validUntil, chosen, parsed) ←
    walk s t (scopes site loopId gateProfileId) (forever, none, parsed)
  .ok (match chosen with
    | none => (⟨none, 0, 0, none, validUntil⟩, parsed)
    | some c => ({ c with validUntilMs := validUntil }, parsed))

end EffectiveBundleSelector

end OpenBridge.GateConfig
