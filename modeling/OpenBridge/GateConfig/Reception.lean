import OpenBridge.GateConfig.Activation

/-!
# Control plane: the messages that carry a bundle

`BundleEnvelope`: the document of a bundle, its signature with the service key, and the message
that is published for a phase of a deployment.
-/

namespace OpenBridge.ControlPlane

open OpenBridge.Foundation
open OpenBridge.GateConfig (CanonicalJson.signature)

/-- A bundle row, as far as its document is made from it. -/
structure BundleView where
  bundleId : String
  version : ℤ
  contentHash : String
  site : String
  scopeKind : String
  scopeRef : Option String
  parentHash : Option String
  catalogueHash : String
  changeClass : String
  effectiveFrom : Option String
  layers : Json
  resolved : Json

namespace BundleEnvelope

def textOrNull (s : Option String) : Json := s.elim .null .text

/-- The text before the first `@`. -/
def beforeAt (s : String) : String := String.ofList (s.toList.takeWhile (· ≠ '@'))

/-- `Bundle`: the document of a bundle with its approvals. -/
def bundle (b : BundleView) (approvals : List Json) : Json :=
  .object [
    ("bundle_id", .text b.bundleId),
    ("version", .number (.integral b.version)),
    ("hash", .text b.contentHash),
    ("scope", .object [
      ("tenant", .text "default"),
      ("site", .text b.site),
      ("kind", .text b.scopeKind),
      ("profile_id", textOrNull (if b.scopeKind = "PROFILE" then b.scopeRef else none)),
      ("loop_id", textOrNull
        (if b.scopeKind = "LOOP" ∨ b.scopeKind = "REGIME" then b.scopeRef.map beforeAt else none)),
      ("regime_id", textOrNull (if b.scopeKind = "REGIME" then b.scopeRef else none))]),
    ("parent_hashes", .array (b.parentHash.map Json.text).toList),
    ("requires", .object [
      ("catalogue_hash", .text b.catalogueHash),
      ("schema_version", .text "1.0.0"),
      ("method_versions", .object []),
      ("build_capability", .null)]),
    ("change_class", .text b.changeClass),
    ("effective_from", textOrNull b.effectiveFrom),
    ("approvals", .array approvals),
    ("constraints", .object []),
    ("layers", b.layers),
    ("resolved", b.resolved)]

/-- A phase of a deployment as it is published; the envelope's effective time is the deployment's. -/
structure Publication where
  view : BundleView
  approvals : List Json
  phase : String
  deploymentId : String
  effectiveFromMs : ℤ
  emittedAtMs : ℤ

namespace Publication

def document (p : Publication) : Json := bundle p.view p.approvals

def key (p : Publication) : String := p.view.bundleId

def signed (p : Publication) (signature : String) : Json :=
  .object [
    ("record_kind", .text "GATE_CONFIG_BUNDLE"),
    ("phase", .text p.phase),
    ("deployment_id", .text p.deploymentId),
    ("bundle_id", .text p.view.bundleId),
    ("hash", .text p.view.contentHash),
    ("effective_from_ms", .number (.integral p.effectiveFromMs)),
    ("topology_generation", .null),
    ("bundle", p.document),
    ("signature", .text signature),
    ("emitted_at_ms", .number (.integral p.emittedAtMs))]

/-- `Message`: refused when the document has no canonical text. -/
def message (p : Publication) (serviceKey : String) : Except String Json := do
  let signature ← CanonicalJson.signature p.document serviceKey
  .ok (p.signed signature)

end Publication

end BundleEnvelope

end OpenBridge.ControlPlane

/-!
# Gate configuration: published messages at a worker

What a worker reads from a message that the control plane publishes.
-/

namespace OpenBridge.ControlPlane.BundleEnvelope.Publication

open OpenBridge.Foundation
open OpenBridge.GateConfig
open OpenBridge.GateConfig.BundleBroadcastHandler

variable {p : Publication} {signature : String}

def received (p : Publication) : GateConfigBundle where
  bundleId := p.view.bundleId
  hash := p.view.contentHash
  site := p.view.site
  scopeKind := p.view.scopeKind
  profileId := if p.view.scopeKind = "PROFILE" then p.view.scopeRef else none
  loopId := if p.view.scopeKind = "LOOP" ∨ p.view.scopeKind = "REGIME" then
    p.view.scopeRef.map beforeAt else none
  changeClass := p.view.changeClass
  catalogueHash := p.view.catalogueHash
  effectiveFromMs := GateConfigBundle.effectiveFrom (p.signed "")
  bundle := p.document

theorem text_textOrNull {n : JsonNode} {field : String} {o : Option String}
    (h : n.path field = some (textOrNull o)) : GateConfigBundle.text n field = o := by
  cases o with
  | none => simp [GateConfigBundle.text, h, textOrNull]
  | some s => simp [GateConfigBundle.text, h, textOrNull, Json.asText]

theorem document_signed : GateConfigBundle.document (p.signed signature) = p.document := by
  simp [GateConfigBundle.document, signed, Json.get_object, List.lookup_cons]

theorem document_document : GateConfigBundle.document p.document = p.document := by
  simp [GateConfigBundle.document, document, bundle, Json.get_object, List.lookup_cons]

theorem effectiveFrom_signed :
    GateConfigBundle.effectiveFrom (p.signed signature) = p.received.effectiveFromMs := by
  simp only [received, GateConfigBundle.effectiveFrom, document_signed]
  simp [signed, Json.get_object, List.lookup_cons]

theorem parse_of_document {root : Json} (h : GateConfigBundle.document root = p.document) :
    GateConfigBundle.parse root =
      .ok { p.received with effectiveFromMs := GateConfigBundle.effectiveFrom root } := by
  simp only [GateConfigBundle.parse, h]
  simp [document, bundle, received, Json.get_object, List.lookup_cons, Json.isObject, JsonNode.path,
    JsonNode.asText, Json.asText]
  constructor <;> exact text_textOrNull (by simp [JsonNode.path, Json.get_object, List.lookup_cons])

theorem parse_signed : GateConfigBundle.parse (p.signed signature) = .ok p.received := by
  rw [parse_of_document document_signed, effectiveFrom_signed]

theorem isBundleRecord_signed : isBundleRecord (p.signed signature) = true := by
  simp [isBundleRecord, signed, Json.isObject, Json.get_object, List.lookup_cons, JsonNode.asText,
    Json.asText, recordKind]

theorem phase_signed : ((p.signed signature).get "phase").asText "PREPARE" = p.phase := by
  simp [signed, Json.get_object, List.lookup_cons, JsonNode.asText, Json.asText]

theorem get_bundle_signed : (p.signed signature).get "bundle" = some p.document := by
  simp [signed, Json.get_object, List.lookup_cons]

theorem length_hmacSha256Hex (key text : String) :
    (CanonicalJson.hmacSha256Hex key text).length = 64 := by
  simp [CanonicalJson.hmacSha256Hex, Sha256.length_hex, Sha256.hmac, Sha256.length_digest]

theorem verify_signed {key : String} (hkey : key ≠ "")
    (h : CanonicalJson.signature p.document key = .ok signature) :
    verify (p.signed signature) (some key) = .ok none := by
  have hsig : ((p.signed signature).get "signature").asText "" = signature := by
    simp [signed, Json.get_object, List.lookup_cons, JsonNode.asText, Json.asText]
  have hne : signature ≠ "" := by
    intro h0
    simp only [CanonicalJson.signature] at h
    cases hc : CanonicalJson.canonicalize p.document with
    | error e => simp [hc, Except.map] at h
    | ok text =>
      simp only [hc, Except.map, Except.ok.injEq] at h
      have hlen := length_hmacSha256Hex key text
      rw [h, h0] at hlen
      simp at hlen
  simp [verify, Option.filter, hkey, hsig, hne, get_bundle_signed, h, bind, Except.bind]

/-! ## The handler on a published message -/

section Handler

variable {jobName key : String} {s : ActiveConfigState}

theorem message_verifies (hkey : key ≠ "")
    (hcanonical : (CanonicalJson.canonicalize p.document).isOk = true) :
    ∃ signature, p.message key = .ok (p.signed signature) ∧
      verify (p.signed signature) (some key) = .ok none := by
  cases hc : CanonicalJson.canonicalize p.document with
  | error e => simp [hc, Except.isOk, Except.toBool] at hcanonical
  | ok text =>
    have hsig : CanonicalJson.signature p.document key =
        .ok (CanonicalJson.hmacSha256Hex key text) := by
      simp [CanonicalJson.signature, hc, Except.map]
    exact ⟨_, by simp [message, hsig, bind, Except.bind], verify_signed hkey hsig⟩

def acknowledged (p : Publication) : ConfigAck :=
  ⟨p.deploymentId, p.view.bundleId, p.phase, p.view.contentHash, none⟩

theorem handle_prepare_message (hkey : key ≠ "")
    (hcanonical : (CanonicalJson.canonicalize p.document).isOk = true) (hphase : p.phase = "PREPARE")
    (hvalid : p.received.validate jobName = .ok []) :
    handle jobName (some key) (p.message key) s =
      .ok ({ s with prepared := s.prepared.set p.view.contentHash p.document },
        [p.acknowledged]) := by
  obtain ⟨signature, hmessage, hverify⟩ := message_verifies hkey hcanonical
  rw [hmessage, handle_prepare isBundleRecord_signed parse_signed hverify
    (phase_signed.trans hphase) hvalid get_bundle_signed]
  simp [acknowledged, hphase, received, signed, Json.get_object, List.lookup_cons, JsonNode.asText,
    Json.asText]

theorem handle_apply_message (hkey : key ≠ "")
    (hcanonical : (CanonicalJson.canonicalize p.document).isOk = true) (hphase : p.phase = "APPLY")
    (hprepared : s.prepared.contains p.view.contentHash = true) :
    handle jobName (some key) (p.message key) s =
      .ok (applyBundle s p.received p.deploymentId, [p.acknowledged]) := by
  obtain ⟨signature, hmessage, hverify⟩ := message_verifies hkey hcanonical
  rw [hmessage, handle_apply isBundleRecord_signed parse_signed hverify (phase_signed.trans hphase)
    hprepared]
  simp [acknowledged, hphase, received, signed, Json.get_object, List.lookup_cons, JsonNode.asText,
    Json.asText]

theorem applied_message {root : Json} (hkey : key ≠ "")
    (hcanonical : (CanonicalJson.canonicalize p.document).isOk = true) (hphase : p.phase = "APPLY")
    (hprepared : s.prepared.contains p.view.contentHash = true) (hroot : p.message key = .ok root) :
    applied jobName (some key) root s =
      some (p.received, applyBundle s p.received p.deploymentId) := by
  obtain ⟨signature, hmessage, -⟩ := message_verifies hkey hcanonical
  have hhandle := @handle_apply_message p jobName key s hkey hcanonical hphase hprepared
  rw [hmessage] at hroot hhandle
  simp only [Except.ok.injEq] at hroot
  subst hroot
  simp [applied, hhandle, parse_signed, acknowledged, hphase]

end Handler

/-! Two site-wide bundles of one plant, each with one property. -/

/-- The publication of a site-wide bundle that sets one property to 5. -/
def ofSite (bundleId hash property phase : String) (effectiveFromMs : ℤ) : Publication where
  view := {
    bundleId := bundleId
    version := 1
    contentHash := hash
    site := "plant-1"
    scopeKind := "SITE"
    scopeRef := some ""
    parentHash := none
    catalogueHash := PropertyCatalogue.catalogueHash
    changeClass := "POLICY"
    effectiveFrom := none
    layers := .array [.object [("kind", .text "SITE"),
      ("content", .object [(property, .number (.integral 5))])]]
    resolved := .object [("properties", .object [(property, .number (.integral 5))]),
      ("execution_plan", .object [])] }
  approvals := []
  phase := phase
  deploymentId := "d-" ++ bundleId
  effectiveFromMs := effectiveFromMs
  emittedAtMs := 0

def cycles (phase : String) (effectiveFromMs : ℤ) : Publication :=
  ofSite "b-cycles" "5991236f53a91a5e4fa1536e4f9c490ebdfad9104fb4b0df438d829bf7c7dedf"
    "G5.min_complete_cycles" phase effectiveFromMs

def samples (phase : String) (effectiveFromMs : ℤ) : Publication :=
  ofSite "b-samples" "d738fef1db17863331ec5a70dccf5b0abe9dc21a337ce0cb5bf4797a81a96a03"
    "G5.min_samples_per_period" phase effectiveFromMs

theorem canonical_cycles (phase : String) (t : ℤ) :
    (CanonicalJson.canonicalize (cycles phase t).document).isOk = true := by
  have h : (CanonicalJson.canonicalize (cycles "" 0).document).isOk = true := by decide +kernel
  exact h

theorem canonical_samples (phase : String) (t : ℤ) :
    (CanonicalJson.canonicalize (samples phase t).document).isOk = true := by
  have h : (CanonicalJson.canonicalize (samples "" 0).document).isOk = true := by decide +kernel
  exact h

theorem valid_cycles (jobName : String) (t : ℤ) :
    (cycles "PREPARE" t).received.validate jobName = .ok [] := by
  have h : (cycles "PREPARE" 0).received.validate "" = .ok [] := by decide +kernel
  have heq : (cycles "PREPARE" t).received = { (cycles "PREPARE" 0).received with
      effectiveFromMs := (cycles "PREPARE" t).received.effectiveFromMs } := rfl
  rw [heq, GateConfigBundle.validate_withEffectiveFrom _ _ jobName ""]
  exact h

theorem valid_samples (jobName : String) (t : ℤ) :
    (samples "PREPARE" t).received.validate jobName = .ok [] := by
  have h : (samples "PREPARE" 0).received.validate "" = .ok [] := by decide +kernel
  have heq : (samples "PREPARE" t).received = { (samples "PREPARE" 0).received with
      effectiveFromMs := (samples "PREPARE" t).received.effectiveFromMs } := rfl
  rw [heq, GateConfigBundle.validate_withEffectiveFrom _ _ jobName ""]
  exact h

end OpenBridge.ControlPlane.BundleEnvelope.Publication
