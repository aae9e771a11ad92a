import Mathlib.Data.List.Sort
import OpenBridge.EventFrames.EventActionStore

/-!
# Registry: the device bindings of the loop signals

`InstrumentBindingService.CreateAsync` and `ListAsync`, the table of the bindings with its
constraints, and the metadata topic.  Times are ticks, the columns hold microseconds.
-/

namespace OpenBridge.Registry

open OpenBridge.Foundation
open OpenBridge.EventFrames (timestamptz)

/-- `InstrumentBinding`: a row of `cpm.signal_device_binding_history`. -/
structure InstrumentBinding where
  bindingId : ℕ
  site : String
  loopId : String
  signalRole : String
  deviceId : String
  installationId : Option String
  sourceId : String
  validFrom : ℤ
  validTo : Option ℤ
  approvedBy : String
  approvedAt : ℤ
  note : Option String
  deriving DecidableEq

structure CreateBindingRequest where
  signalRole : Option String
  deviceId : Option String
  installationId : Option String
  sourceId : Option String
  validFrom : Option ℤ
  note : Option String
  deriving DecidableEq

inductive BindingError where
  | validation (field message : String)
  | conflict (message : String)
  /-- a `PostgresException` that is not caught, with its `SqlState` -/
  | database (sqlState : String)
  deriving DecidableEq

namespace InstrumentBinding

def sameSignal (b c : InstrumentBinding) : Prop := b.loopId = c.loopId ∧ b.signalRole = c.signalRole

/-- The interval `[validFrom, validTo)` of the first ends where that of the second begins, or before. -/
def endsBefore (b c : InstrumentBinding) : Prop := ∃ t, b.validTo = some t ∧ t ≤ c.validFrom

/-- `ex_binding_no_overlap`, for two rows. -/
def apart (b c : InstrumentBinding) : Prop := b.sameSignal c → b.endsBefore c ∨ c.endsBefore b

def covers (b : InstrumentBinding) (t : ℤ) : Prop := b.validFrom ≤ t ∧ ∀ stop, b.validTo = some stop → t < stop

/-- `ck_binding_range`. -/
def ranged (b : InstrumentBinding) : Prop := ∀ stop, b.validTo = some stop → b.validFrom < stop

instance (b c : InstrumentBinding) : Decidable (b.sameSignal c) :=
  inferInstanceAs (Decidable (_ ∧ _))

instance (b c : InstrumentBinding) : Decidable (b.endsBefore c) :=
  match h : b.validTo with
  | none => isFalse fun ⟨_, hsome, _⟩ => nomatch h.symm.trans hsome
  | some t =>
      if ht : t ≤ c.validFrom then isTrue ⟨t, h, ht⟩
      else isFalse fun ⟨_, hsome, hle⟩ => ht (Option.some.inj (h.symm.trans hsome) ▸ hle)

instance (b c : InstrumentBinding) : Decidable (b.apart c) :=
  inferInstanceAs (Decidable (_ → _))

instance (b : InstrumentBinding) : Decidable b.ranged :=
  match h : b.validTo with
  | none => isTrue fun _ hsome => nomatch h.symm.trans hsome
  | some t =>
      if ht : b.validFrom < t then isTrue fun _ hsome => Option.some.inj (h.symm.trans hsome) ▸ ht
      else isFalse fun hall => ht (hall t h)

instance (b : InstrumentBinding) (t : ℤ) : Decidable (b.covers t) :=
  match h : b.validTo with
  | none =>
      if hfrom : b.validFrom ≤ t then isTrue ⟨hfrom, fun _ hsome => nomatch h.symm.trans hsome⟩
      else isFalse fun hcovers => hfrom hcovers.1
  | some stop =>
      if hin : b.validFrom ≤ t ∧ t < stop then
        isTrue ⟨hin.1, fun _ hsome => Option.some.inj (h.symm.trans hsome) ▸ hin.2⟩
      else isFalse fun hcovers => hin ⟨hcovers.1, hcovers.2 stop h⟩

end InstrumentBinding

def Timelines (rows : List InstrumentBinding) : Prop := rows.Pairwise InstrumentBinding.apart

instance (rows : List InstrumentBinding) : Decidable (Timelines rows) :=
  inferInstanceAs (Decidable (List.Pairwise _ _))

namespace InstrumentBindingService

def roles : List String := ["PV", "SP", "OP", "VP", "MODE"]

/-- `Id`. -/
def isId (s : String) : Bool :=
  match s.toList with
  | [] => false
  | c :: cs => c.isAlphanum && cs.all fun d => d.isAlphanum || d ∈ ['.', '_', ':', '-']

def roleOf (req : CreateBindingRequest) : String := toUpperInvariant (trim (req.signalRole.getD ""))

def validate (req : CreateBindingRequest) : Except BindingError Unit :=
  if roleOf req ∉ roles then
    .error (.validation "signalRole" "signalRole must be one of PV, SP, OP, VP, MODE")
  else if isId (trim (req.deviceId.getD "")) = false then
    .error (.validation "deviceId" "deviceId is required (letters, digits, . _ : -)")
  else if isId (trim (req.sourceId.getD "")) = false then
    .error (.validation "sourceId"
      "sourceId is required (the Instrumental source publishing this device)")
  else if req.installationId.any fun i => i ≠ "" ∧ isId (trim i) = false then
    .error (.validation "installationId" "installationId must be an identifier")
  else .ok ()

structure PublishedBinding where
  bindingId : ℕ
  signalRole : String
  deviceId : String
  installationId : Option String
  sourceId : String
  validFromMs : ℤ
  validToMs : Option ℤ
  deriving DecidableEq

/-- `ToUnixTimeMilliseconds`. -/
def unixMs (t : ℤ) : ℤ := t / 10000 - 62135596800000

/-- The projection of `PublishAsync`. -/
def publishedOf (b : InstrumentBinding) : PublishedBinding :=
  { bindingId := b.bindingId, signalRole := b.signalRole, deviceId := b.deviceId,
    installationId := b.installationId, sourceId := b.sourceId, validFromMs := unixMs b.validFrom,
    validToMs := b.validTo.map unixMs }

structure BindingRecord where
  key : String
  loopId : String
  bindings : List PublishedBinding
  deriving DecidableEq

def recordKey (loopId : String) : String := loopId ++ "|binding"

/-- `ORDER BY signal_role, valid_from DESC`. -/
def listedBefore (b c : InstrumentBinding) : Prop :=
  b.signalRole < c.signalRole ∨ (b.signalRole = c.signalRole ∧ c.validFrom ≤ b.validFrom)

instance : DecidableRel listedBefore := fun _ _ => inferInstanceAs (Decidable (_ ∨ _))

def listAsync (rows : List InstrumentBinding) (loopId : String) : List InstrumentBinding :=
  (rows.filter fun b => toLowerInvariant b.loopId = toLowerInvariant loopId).insertionSort
    listedBefore

inductive Progress where
  /-- it read the open binding of its signal -/
  | read (open_ : Option InstrumentBinding)
  | committed
  | listed (history : List InstrumentBinding)
  | returned
  | failed (error : BindingError)
  deriving DecidableEq

/-- A call of `CreateAsync`, with the time its binding starts. -/
structure Call where
  loopId : String
  request : CreateBindingRequest
  actor : String
  start : ℤ
  progress : Progress
  deriving DecidableEq

structure Bindings where
  rows : List InstrumentBinding
  topic : List BindingRecord := []
  calls : List Call := []
  deriving DecidableEq

/-- A step of a call.  A commit draws the identifier and the time of the row. -/
inductive Event where
  | create (loopId : String) (request : CreateBindingRequest) (actor : String) (nowTicks : ℤ)
  | commit (k : ℕ) (bindingId : ℕ) (approvedAt : ℤ)
  | list (k : ℕ)
  | publish (k : ℕ)
  deriving DecidableEq

section Steps

/- The sites of the registered loops, and a time in the round-trip format. -/
variable (site : String → Option String) (timeText : ℤ → String)

def begin (rows : List InstrumentBinding) (loopId : String) (request : CreateBindingRequest)
    (nowTicks : ℤ) : Progress :=
  match validate request with
  | .error e => .failed e
  | .ok _ =>
      let start := request.validFrom.getD nowTicks
      let open_ := rows.find? fun b =>
        b.loopId = loopId ∧ b.signalRole = roleOf request ∧ b.validTo = none
      match open_.filter fun b => start ≤ b.validFrom with
      | some b => .failed (.conflict ("the current " ++ roleOf request ++ " binding (" ++
          b.deviceId ++ ") already starts at " ++ timeText b.validFrom ++
          "; a replacement must start later"))
      | none => .read open_

/-- The `UPDATE` that ends the open binding. -/
def close (rows : List InstrumentBinding) (open_ : Option InstrumentBinding) (start : ℤ) :
    List InstrumentBinding :=
  match open_ with
  | none => rows
  | some o => rows.map fun b =>
      if b.bindingId = o.bindingId then { b with validTo := some (timestamptz start) } else b

def inserted (c : Call) (siteName : String) (bindingId : ℕ) (approvedAt : ℤ) : InstrumentBinding :=
  { bindingId := bindingId, site := siteName, loopId := c.loopId, signalRole := roleOf c.request,
    deviceId := trim (c.request.deviceId.getD ""),
    installationId := (c.request.installationId.map trim).filter (· ≠ ""),
    sourceId := trim (c.request.sourceId.getD ""), validFrom := timestamptz c.start, validTo := none,
    approvedBy := c.actor, approvedAt := approvedAt, note := c.request.note }

def transact (rows : List InstrumentBinding) (c : Call) (open_ : Option InstrumentBinding)
    (bindingId : ℕ) (approvedAt : ℤ) : Except BindingError (List InstrumentBinding) :=
  let closed := close rows open_ c.start
  if ¬ ∀ b ∈ closed, b.ranged then .error (.database "23514")
  else if ¬ Timelines closed then .error (.database "23P01")
  else
    match site c.loopId with
    | none => .error (.validation "loopId" ("loop '" ++ c.loopId ++ "' is not registered"))
    | some siteName =>
        let rows' := closed ++ [inserted c siteName bindingId approvedAt]
        if bindingId ∈ closed.map InstrumentBinding.bindingId then .error (.database "23505")
        else if ¬ Timelines rows' then
          .error (.conflict ("a " ++ roleOf c.request ++ " binding for " ++ c.loopId ++
            " already covers " ++ timeText c.start ++ " (overlapping primaries are refused)"))
        else .ok rows'

/-- One step. -/
def step (s : Bindings) : Event → Bindings × List Empty
  | .create loopId request actor nowTicks =>
      ({ s with calls := s.calls ++ [⟨loopId, request, actor, request.validFrom.getD nowTicks,
          begin timeText s.rows loopId request nowTicks⟩] }, [])
  | .commit k bindingId approvedAt =>
      match s.calls[k]? with
      | some c =>
          match c.progress with
          | .read open_ =>
              match transact site timeText s.rows c open_ bindingId approvedAt with
              | .ok rows =>
                  ({ s with rows := rows, calls := s.calls.set k { c with progress := .committed } },
                    [])
              | .error e => ({ s with calls := s.calls.set k { c with progress := .failed e } }, [])
          | _ => (s, [])
      | none => (s, [])
  | .list k =>
      match s.calls[k]? with
      | some c =>
          match c.progress with
          | .committed =>
              ({ s with
                calls := s.calls.set k { c with progress := .listed (listAsync s.rows c.loopId) } },
                [])
          | _ => (s, [])
      | none => (s, [])
  | .publish k =>
      match s.calls[k]? with
      | some c =>
          match c.progress with
          | .listed history =>
              ({ s with
                topic := s.topic ++ [⟨recordKey c.loopId, c.loopId, history.map publishedOf⟩]
                calls := s.calls.set k { c with progress := .returned } }, [])
          | _ => (s, [])
      | none => (s, [])

def after (s : Bindings) (run : List Event) : Bindings :=
  Machine.stateAfter (step site timeText) s run

end Steps

end InstrumentBindingService

end OpenBridge.Registry
