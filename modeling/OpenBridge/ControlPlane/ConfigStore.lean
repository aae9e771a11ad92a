import OpenBridge.Foundation.Json
import OpenBridge.Foundation.Machine

/-!
# Control plane: the store of one configuration revision

`ConfigStore` and the creation of a deployment in `ConfigDeploymentService`, on the row of one
bundle.  Every operation reads the row, decides on what it read, and writes in a later database
step; between the two other calls may read and write.

What the build computes on the documents is `ConfigRules`: any pure functions.
-/

namespace OpenBridge.ControlPlane

open OpenBridge.Foundation

/-- The states of a bundle. -/
inductive BundleState where
  | draft
  | validated
  | rejected
  | shadowEvaluated
  | approved
  | scheduled
  | prepared
  | activeVerified
  | superseded
  | rolledBack
  | partiallyAcknowledged
  | activationFailed
  deriving DecidableEq

def BundleState.text : BundleState → String
  | draft => "DRAFT"
  | validated => "VALIDATED"
  | rejected => "REJECTED"
  | shadowEvaluated => "SHADOW_EVALUATED"
  | approved => "APPROVED"
  | scheduled => "SCHEDULED"
  | prepared => "PREPARED"
  | activeVerified => "ACTIVE_VERIFIED"
  | superseded => "SUPERSEDED"
  | rolledBack => "ROLLED_BACK"
  | partiallyAcknowledged => "PARTIALLY_ACKNOWLEDGED"
  | activationFailed => "ACTIVATION_FAILED"

/-- One layer of a bundle; `none` is a content that is not an object. -/
structure ConfigLayer where
  kind : String
  ref : Option String
  content : Option (Dict String Json)
  contentHash : Option String

structure BundleContent where
  layers : List ConfigLayer
  resolved : Json

/-- The pure functions of the build that the store calls. -/
structure ConfigRules where
  /-- `catalogue.TryGet` -/
  isProperty : String → Bool
  /-- the errors of `BundleValidator.ValidateProperties` on one value that name its property -/
  valueErrors : String → Json → List String
  /-- `CanonicalJson.Sha256` of a layer's content -/
  layerHash : Dict String Json → String
  /-- `EffectiveConfigResolver.Resolve`, or its errors -/
  resolve : List ConfigLayer → Except String Json
  /-- `CanonicalJson.Sha256` of the layers and the resolved block -/
  contentHash : BundleContent → String
  /-- `ChangeClassifier.Classify` of the edited properties and those that differ -/
  changeClass : Json → Json → List String → String
  /-- the class of what the bundle's own layer edits -/
  ownClass : BundleContent → String
  /-- the errors of `BundleValidator.Report` -/
  report : BundleContent → List String
  /-- equality of user names that ignores case -/
  sameUser : String → String → Bool
  /-- a time in the round-trip format -/
  timeText : ℤ → String

/-- The row of the bundle.  `editor` is the user of the last edit as the audit trail has it, the
author before the first; no operation reads it. -/
structure BundleRow where
  content : BundleContent
  contentHash : String
  scopeKind : String
  createdBy : String
  catalogueHash : String
  changeClass : String
  state : BundleState
  validation : Option (List String)
  etag : String
  editor : String

inductive ConfigError where
  | conflict (message : String)
  | forbidden (message : String)
  | state (message : String)
  | argument (message : String)
  deriving DecidableEq

structure PatchOp where
  op : String
  property : String
  value : Option Json

structure Approver where
  name : String
  role : String
  roles : List String
  note : Option String
  validityMs : ℤ
  controlAuthorityRequired : Bool

/-- A row of `cpm.config_approval` whose decision is `APPROVED`. -/
structure Approval where
  contentHash : String
  approver : String
  role : String
  note : Option String
  expiresAtMs : ℤ

structure Capability where
  jobName : String
  catalogueHash : String
  readsProperties : Bool

namespace ConfigStore

variable (rules : ConfigRules)

/-! ## Patching -/

def resetToInherited : Json := .text "RESET_TO_INHERITED"

def applyOp (content : Dict String Json) (o : PatchOp) : Except ConfigError (Dict String Json) :=
  if rules.isProperty o.property = false then
    .error (.argument ("'" ++ o.property ++ "' is not a catalogue property"))
  else
    match toLowerInvariant o.op with
    | "set" =>
        match o.value with
        | none | some .null =>
            .error (.argument
              ("'" ++ o.property ++ "': set needs a value (use reset to inherit)"))
        | some v =>
            let errors := rules.valueErrors o.property v
            if errors ≠ [] then .error (.argument ("; ".intercalate errors))
            else .ok (content.set o.property v)
    | "reset" => .ok (content.set o.property resetToInherited)
    | _ => .error (.argument ("unknown op '" ++ o.op ++ "' (set | reset)"))

def editOwn (scopeKind : String) (ops : List PatchOp) :
    List ConfigLayer → Except ConfigError (List ConfigLayer)
  | [] => .error (.state "the bundle has no layer of its own scope")
  | l :: rest =>
      if l.kind = scopeKind then do
        let content ← ops.foldlM (applyOp rules) (l.content.getD Dict.empty)
        .ok ({ l with content := some content, contentHash := some (rules.layerHash content) } ::
          rest)
      else do
        let rest' ← editOwn scopeKind ops rest
        .ok (l :: rest')

/-- The entity tag that an `If-Match` header presents. -/
def presented (ifMatch : String) : String := trimWhere (fun c => c = '"' ∨ c = ' ') ifMatch

def immutable : List BundleState :=
  [.activeVerified, .superseded, .rolledBack, .scheduled, .prepared]

/-- `PatchAsync` up to its write: the content to write and its change class. -/
def prepare (row : BundleRow) (ifMatch : String) (ops : List PatchOp) :
    Except ConfigError (BundleContent × String) :=
  if row.etag ≠ presented ifMatch then
    .error (.conflict "stale etag: the bundle changed since you read it")
  else if row.state ∈ immutable then
    .error (.state ("a bundle in state " ++ row.state.text ++
      " is immutable; create a new draft from it"))
  else do
    let layers ← editOwn rules row.scopeKind ops row.content.layers
    let resolved ← (rules.resolve layers).mapError fun e =>
      ConfigError.argument ("layers do not resolve: " ++ e)
    .ok (⟨layers, resolved⟩,
      rules.changeClass row.content.resolved resolved (ops.map PatchOp.property))

/-- The `UPDATE` of `PatchAsync`. -/
def writePatch (row : BundleRow) (content : BundleContent) (changeClass actor etag : String) :
    BundleRow :=
  { row with
    content := content
    contentHash := rules.contentHash content
    changeClass := changeClass
    state := .draft
    validation := none
    etag := etag
    editor := actor }

/-! ## Validating, approving and deploying -/

/-- The check of `ValidateAsync` on the row it read. -/
def checkValidate (row : BundleRow) : Except ConfigError Unit :=
  if row.state ∈ [BundleState.draft, .validated, .rejected, .shadowEvaluated] then .ok ()
  else .error (.state ("cannot validate a bundle in state " ++ row.state.text))

/-- The `UPDATE` of `ValidateAsync`: the verdict on what it read. -/
def writeValidation (read row : BundleRow) (etag : String) : BundleRow :=
  let errors := rules.report read.content
  { row with
    state := if errors = [] then .validated else .rejected
    validation := some errors
    changeClass := rules.ownClass read.content
    etag := etag }

/-- The checks of `ApproveAsync` on the row it read. -/
def checkApprove (row : BundleRow) (a : Approver) : Except ConfigError Unit :=
  if row.state ∉ [BundleState.validated, .shadowEvaluated] then
    .error (.state ("only a VALIDATED or SHADOW_EVALUATED bundle can be approved (state " ++
      row.state.text ++ ")"))
  else if rules.sameUser row.createdBy a.name then
    .error (.forbidden "self-approval is refused: the approver must differ from the author")
  else if a.controlAuthorityRequired = true ∧
      a.roles.any (rules.sameUser "ControlAuthority") = false then
    .error (.forbidden ("a site-wide or objective / test-permission change needs an approver " ++
      "with the ControlAuthority role"))
  else .ok ()

/-- The approval that `ApproveAsync` inserts: it binds to the content it read. -/
def approvalOf (read : BundleRow) (a : Approver) (nowMs : ℤ) : Approval :=
  { contentHash := read.contentHash, approver := a.name, role := a.role, note := a.note,
    expiresAtMs := nowMs + a.validityMs }

/-- The first check of `CreateAsync`, on the row it read. -/
def checkDeployable (row : BundleRow) : Except ConfigError Unit :=
  if row.state ∈ [BundleState.approved, .partiallyAcknowledged, .activationFailed] then .ok ()
  else .error (.state ("only an APPROVED bundle can be deployed (state " ++ row.state.text ++ ")"))

/-- `ValidApprovalAsync`: the newest approval of this content. -/
def validApproval (approvals : List Approval) (contentHash : String) : Option Approval :=
  (approvals.filter fun a => a.contentHash = contentHash).getLast?

/-- The later checks of `CreateAsync`: an approval that binds to the content it read and has not
expired, and jobs that can apply the bundle. -/
def checkApproval (approvals : List Approval) (row : BundleRow) (nowMs : ℤ)
    (announced : List Capability) : Except ConfigError Unit :=
  let foreign := announced.filter fun c => c.catalogueHash ≠ row.catalogueHash
  match validApproval approvals row.contentHash with
  | none => .error (.state "no approval binds to the bundle's current content hash")
  | some a =>
      if a.expiresAtMs < nowMs then
        .error (.conflict ("the approval expired at " ++ rules.timeText a.expiresAtMs ++
          "; approve again"))
      else if announced = [] then
        .error (.state ("no CPLM job has announced a capability yet: nothing can acknowledge " ++
          "the bundle"))
      else if foreign ≠ [] then
        .error (.state ("the bundle was validated against catalogue " ++
          String.ofList (row.catalogueHash.toList.take 12) ++ " but these jobs run another: " ++
          ", ".intercalate (foreign.map Capability.jobName)))
      else if announced.any Capability.readsProperties = false then
        .error (.state ("no announced CPLM job reads a catalogue property: nothing can apply " ++
          "the bundle"))
      else .ok ()

/-! ## The calls and their steps -/

inductive Request where
  | patch (ifMatch : String) (ops : List PatchOp) (actor : String)
  | validate
  | approve (approver : Approver)
  | create

inductive Progress where
  | read
  | checked
  | done
  | failed (error : ConfigError)
  deriving DecidableEq

structure Call where
  request : Request
  row : BundleRow
  progress : Progress

structure Store where
  row : BundleRow
  approvals : List Approval := []
  calls : List Call := []

def Call.advance (c : Call) (progress : Progress) : Call := { c with progress := progress }

/-- A database step of one of the calls.  The writes come with the entity tag they draw
(`NewEtag`) and the time. -/
inductive Event where
  | read (request : Request)
  | check (call : ℕ) (nowMs : ℤ) (announced : List Capability)
  | write (call : ℕ) (etag : String) (nowMs : ℤ)

structure Edit where
  ifMatch : String
  ops : List PatchOp
  actor : String
  etag : String

inductive Record where
  | edited (edit : Edit)
  | approved (read : BundleRow) (approver : String)
  | published (read : BundleRow)

def accept (row : BundleRow) : Request → Except ConfigError Unit
  | .patch ifMatch ops _ => (prepare rules row ifMatch ops).map fun _ => ()
  | .validate => checkValidate row
  | .approve a => checkApprove rules row a
  | .create => checkDeployable row

def begin (row : BundleRow) (request : Request) : Call :=
  { request := request, row := row,
    progress := match accept rules row request with
      | .ok _ => .read
      | .error e => .failed e }

def Call.awaitsCheck (c : Call) : Bool :=
  match c.request with
  | .create => c.progress = .read
  | _ => false

def Call.ready (c : Call) : Bool :=
  match c.request with
  | .create => c.progress = .checked
  | _ => c.progress = .read

def writeCall (s : Store) (k : ℕ) (c : Call) (etag : String) (nowMs : ℤ) : Store × List Record :=
  let calls := s.calls.set k (c.advance .done)
  match c.request with
  | .patch ifMatch ops actor =>
      match prepare rules c.row ifMatch ops with
      | .ok w =>
          ({ s with row := writePatch rules s.row w.1 w.2 actor etag, calls := calls },
            [.edited ⟨ifMatch, ops, actor, etag⟩])
      | .error _ => (s, [])
  | .validate => ({ s with row := writeValidation rules c.row s.row etag, calls := calls }, [])
  | .approve a =>
      ({ row := { s.row with state := .approved, etag := etag },
          approvals := s.approvals ++ [approvalOf c.row a nowMs], calls := calls },
        [.approved c.row a.name])
  | .create =>
      ({ s with row := { s.row with state := .scheduled, etag := etag }, calls := calls },
        [.published c.row])

def step (s : Store) : Event → Store × List Record
  | .read request => ({ s with calls := s.calls ++ [begin rules s.row request] }, [])
  | .check k nowMs announced =>
      match s.calls[k]? with
      | some c =>
          if c.awaitsCheck then
            let progress := match checkApproval rules s.approvals c.row nowMs announced with
              | .ok _ => Progress.checked
              | .error e => .failed e
            ({ s with calls := s.calls.set k (c.advance progress) }, [])
          else (s, [])
      | none => (s, [])
  | .write k etag nowMs =>
      match s.calls[k]? with
      | some c => if c.ready then writeCall rules s k c etag nowMs else (s, [])
      | none => (s, [])

/-- What a step does to the store: one constructor for each write, and one for the steps that make
none. -/
inductive Moves (s : Store) : Event → Store → List Record → Prop
  | idle {e : Event} : Moves s e s []
  | began (request : Request) : Moves s (.read request)
      { s with calls := s.calls ++ [begin rules s.row request] } []
  | judged {k : ℕ} {nowMs : ℤ} {announced : List Capability} {c : Call} (progress : Progress)
      (hk : s.calls[k]? = some c) (hc : c.awaitsCheck = true)
      (hchecked : progress = .checked →
        checkApproval rules s.approvals c.row nowMs announced = .ok ()) :
      Moves s (.check k nowMs announced)
        { s with calls := s.calls.set k (c.advance progress) } []
  | patched {k : ℕ} {etag : String} {nowMs : ℤ} {c : Call} {ifMatch actor changeClass : String}
      {ops : List PatchOp} {content : BundleContent} (hk : s.calls[k]? = some c)
      (hrequest : c.request = .patch ifMatch ops actor) (hread : c.progress = .read)
      (hprepare : prepare rules c.row ifMatch ops = .ok (content, changeClass)) :
      Moves s (.write k etag nowMs)
        { s with
          row := writePatch rules s.row content changeClass actor etag
          calls := s.calls.set k (c.advance .done) }
        [.edited ⟨ifMatch, ops, actor, etag⟩]
  | validated {k : ℕ} {etag : String} {nowMs : ℤ} {c : Call} (hk : s.calls[k]? = some c)
      (hrequest : c.request = .validate) (hread : c.progress = .read) :
      Moves s (.write k etag nowMs)
        { s with
          row := writeValidation rules c.row s.row etag
          calls := s.calls.set k (c.advance .done) } []
  | approved {k : ℕ} {etag : String} {nowMs : ℤ} {c : Call} {a : Approver}
      (hk : s.calls[k]? = some c) (hrequest : c.request = .approve a) (hread : c.progress = .read) :
      Moves s (.write k etag nowMs)
        { row := { s.row with state := .approved, etag := etag }
          approvals := s.approvals ++ [approvalOf c.row a nowMs]
          calls := s.calls.set k (c.advance .done) }
        [.approved c.row a.name]
  | published {k : ℕ} {etag : String} {nowMs : ℤ} {c : Call} (hk : s.calls[k]? = some c)
      (hrequest : c.request = .create) (hchecked : c.progress = .checked) :
      Moves s (.write k etag nowMs)
        { s with
          row := { s.row with state := .scheduled, etag := etag }
          calls := s.calls.set k (c.advance .done) }
        [.published c.row]

theorem step_moves (s : Store) (e : Event) : Moves rules s e (step rules s e).1 (step rules s e).2 := by
  cases e with
  | read request => exact .began request
  | check k nowMs announced =>
    simp only [step]
    cases hk : s.calls[k]? with
    | none => exact .idle
    | some c =>
      dsimp only
      split
      · rename_i hc
        refine .judged _ hk hc ?_
        cases checkApproval rules s.approvals c.row nowMs announced with
        | ok _ => exact fun _ => rfl
        | error e => exact fun h => by cases h
      · exact .idle
  | write k etag nowMs =>
    simp only [step]
    cases hk : s.calls[k]? with
    | none => exact .idle
    | some c =>
      dsimp only
      split
      · rename_i hready
        unfold writeCall
        unfold Call.ready at hready
        cases hrequest : c.request with
        | patch ifMatch ops actor =>
          rw [hrequest] at hready
          dsimp only
          cases hprepare : prepare rules c.row ifMatch ops with
          | ok w => exact .patched hk hrequest (by simpa using hready) hprepare
          | error e => exact .idle
        | validate =>
          rw [hrequest] at hready
          exact .validated hk hrequest (by simpa using hready)
        | approve a =>
          rw [hrequest] at hready
          exact .approved hk hrequest (by simpa using hready)
        | create =>
          rw [hrequest] at hready
          exact .published hk hrequest (by simpa using hready)
      · exact .idle

def start (row : BundleRow) : Store := { row := row }

def after (row : BundleRow) (run : List Event) : Store :=
  Machine.stateAfter (step rules) (start row) run

def records (row : BundleRow) (run : List Event) : List Record :=
  Machine.outputs (step rules) (start row) run

end ConfigStore

end OpenBridge.ControlPlane
