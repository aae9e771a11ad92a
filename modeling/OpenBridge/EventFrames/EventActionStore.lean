import OpenBridge.Foundation.ReadModifyWrite
import OpenBridge.Foundation.Text

/-!
# Event frames: the operator's actions

`EventShelvingRules`, `EventActionStore` and the controller between them: an action reads the frame
in one transaction, the rule decides, and the accepted decision is written in another, which updates
the frame whatever it says by then and appends a row to the history.

Times are ticks.  A time column keeps microseconds.
-/

namespace OpenBridge.EventFrames

open OpenBridge.Foundation

/-- `ack_state`. -/
inductive AckState
  | unacknowledged
  | acknowledged
  /-- Of rows that were shelved before the shelf had its own columns. -/
  | shelved
  deriving DecidableEq

/-- `shelf_state`. -/
inductive ShelfState
  | none
  | shelved
  | expired
  deriving DecidableEq

structure EpisodeOperatorState where
  closed : Bool
  ackState : AckState
  shelfState : ShelfState
  shelveUntil : Option ℤ
  deriving DecidableEq

inductive ShelfAction
  | shelved
  | shelveUpdated
  | unshelved
  | acknowledged
  deriving DecidableEq

inductive ShelfDecision
  | ok (action : ShelfAction)
  | refuse (status : ℕ) (error : String)
  deriving DecidableEq

/-! ## The rules -/

namespace EventShelvingRules

def minReasonLength : ℕ := 3

/-- The last tick of a `DateTimeOffset`. -/
def maxTicks : ℤ := 3155378975999999999

/-- `AddHours`: throws (`none`) beyond the years 1 to 9999. -/
def addHours (t hours : ℤ) : Option ℤ :=
  let sum := t + hours * 36000000000
  if 0 ≤ sum ∧ sum ≤ maxTicks then some sum else none

def isActiveShelf (s : EpisodeOperatorState) (now : ℤ) : Bool :=
  (s.shelfState = .shelved ∨ s.ackState = .shelved) ∧ ∃ u ∈ s.shelveUntil, u > now

def isShelved (s : EpisodeOperatorState) : Bool :=
  (s.shelfState = .shelved ∨ s.shelfState = .expired) ∨ s.ackState = .shelved

/-- `Shelve`; `none` where the limit is beyond the last `DateTimeOffset`. -/
def shelve (s : EpisodeOperatorState) (until_ : ℤ) (reason : Option String) (now maxHours : ℤ) :
    Option ShelfDecision :=
  if s.closed then
    some (.refuse 409 "a closed episode cannot be shelved; acknowledge it instead")
  else if utf16Length (trim (reason.getD "")) < minReasonLength then
    some (.refuse 400 "a reason for shelving is required")
  else if until_ ≤ now then some (.refuse 400 "shelve 'until' must be in the future")
  else
    match addHours now maxHours with
    | none => none
    | some limit =>
        if until_ > limit then
          some (.refuse 400 ("shelve 'until' exceeds the site limit of " ++ toString maxHours ++ " h"))
        else some (.ok (if isActiveShelf s now then .shelveUpdated else .shelved))

def unshelve (s : EpisodeOperatorState) : ShelfDecision :=
  if isShelved s then .ok .unshelved else .refuse 409 "the episode is not shelved"

def acknowledge (s : EpisodeOperatorState) : ShelfDecision :=
  if s.ackState = .acknowledged then .refuse 409 "the episode is already acknowledged"
  else .ok .acknowledged

end EventShelvingRules

/-! ## The store -/

/-- The columns of a row of `analytics.cplm_event_frames`. -/
structure EventFrameRow where
  closed : Bool
  ackState : AckState
  ackedBy : Option String
  ackedAt : Option ℤ
  note : Option String
  shelfState : ShelfState
  shelvedBy : Option String
  shelvedAt : Option ℤ
  shelveUntil : Option ℤ
  shelveReason : Option String
  updatedAt : ℤ
  deriving DecidableEq

/-- The action of a row of `analytics.cplm_event_actions`. -/
inductive RecordedAction
  | acknowledged
  | shelved
  | shelveUpdated
  | unshelved
  | shelveExpired
  deriving DecidableEq

/-- A row of `analytics.cplm_event_actions`. -/
structure EventActionRow where
  action : RecordedAction
  actor : String
  recordedAt : ℤ
  until_ : Option ℤ
  reason : Option String
  deriving DecidableEq

structure StoredEpisode where
  row : EventFrameRow
  actions : List EventActionRow
  deriving DecidableEq

def timestamptz (t : ℤ) : ℤ := 630822816000000000 + (t - 630822816000000000).tdiv 10 * 10

inductive ActionRequest
  | acknowledge (note : Option String)
  | shelve (until_ : ℤ) (reason note : Option String)
  | unshelve (reason : Option String)
  deriving DecidableEq

structure OperatorAction where
  request : ActionRequest
  actor : String
  now : ℤ
  deriving DecidableEq

/-- A step that is one transaction: the sweeper's, and the closing by the frame service. -/
inductive FrameStep
  | expireDue (now : ℤ)
  | close (now : ℤ)
  deriving DecidableEq

namespace EventFrameRow

/-- `ReadAsync`. -/
def read (r : EventFrameRow) : EpisodeOperatorState :=
  { closed := r.closed
    ackState := r.ackState
    shelfState := r.shelfState
    shelveUntil := r.shelveUntil }

/-- `CASE WHEN ack_state = 'SHELVED' THEN 'UNACKNOWLEDGED' ELSE ack_state END`. -/
def ackWithoutShelf (r : EventFrameRow) : AckState :=
  if r.ackState = .shelved then .unacknowledged else r.ackState

end EventFrameRow

namespace StoredEpisode

def inserted (now : ℤ) : StoredEpisode :=
  { row :=
      { closed := false
        ackState := .unacknowledged
        ackedBy := none
        ackedAt := none
        note := none
        shelfState := .none
        shelvedBy := none
        shelvedAt := none
        shelveUntil := none
        shelveReason := none
        updatedAt := now }
    actions := [] }

/-- `RecordAsync`. -/
def record (s : StoredEpisode) (action : RecordedAction) (actor : String) (now : ℤ)
    (until_ : Option ℤ) (reason : Option String) : StoredEpisode :=
  { s with actions := s.actions ++ [⟨action, actor, now, until_, reason⟩] }

def shelveAsync (s : StoredEpisode) (actor : String) (until_ : ℤ) (reason : String) (update : Bool)
    (now : ℤ) : StoredEpisode :=
  record
    { s with
      row :=
        { s.row with
          shelfState := .shelved
          shelvedBy := some actor
          shelvedAt := some now
          shelveUntil := some (timestamptz until_)
          shelveReason := some reason
          ackState := s.row.ackWithoutShelf
          updatedAt := now } }
    (if update then .shelveUpdated else .shelved) actor now (some (timestamptz until_)) (some reason)

def unshelveAsync (s : StoredEpisode) (actor : String) (reason : Option String) (now : ℤ) :
    StoredEpisode :=
  record
    { s with
      row :=
        { s.row with
          shelfState := .none
          shelvedBy := none
          shelvedAt := none
          shelveUntil := none
          shelveReason := none
          ackState := s.row.ackWithoutShelf
          updatedAt := now } }
    .unshelved actor now none reason

def acknowledgeAsync (s : StoredEpisode) (actor : String) (note : Option String) (now : ℤ) :
    StoredEpisode :=
  let r := s.row
  record
    { s with
      row :=
        { r with
          ackState := .acknowledged
          ackedBy := some actor
          ackedAt := some now
          note := note <|> r.note
          shelfState := if r.shelfState = .expired then .none else r.shelfState
          shelvedBy := if r.shelfState = .expired then none else r.shelvedBy
          shelvedAt := if r.shelfState = .expired then none else r.shelvedAt
          shelveUntil := if r.shelfState = .expired then none else r.shelveUntil
          shelveReason := if r.shelfState = .expired then none else r.shelveReason
          updatedAt := now } }
    .acknowledged actor now none note

/-- `ExpireDueAsync`, when the frame is due. -/
def expireDueAsync (s : StoredEpisode) (now : ℤ) : Option StoredEpisode :=
  match s.row.shelveUntil with
  | some u =>
      if s.row.shelfState = .shelved ∧ u ≤ now then
        some (record { s with row := { s.row with shelfState := .expired, updatedAt := now } }
          .shelveExpired "system" now (some u) (some "Shelve period expired"))
      else none
  | none => none

def closeAsync (s : StoredEpisode) (now : ℤ) : Option StoredEpisode :=
  if s.row.closed then none
  else some { s with row := { s.row with closed := true, updatedAt := now } }

end StoredEpisode

namespace OperatorAction

def decide (maxHours : ℤ) (a : OperatorAction) (s : StoredEpisode) : Option ShelfAction :=
  let decision :=
    match a.request with
    | .acknowledge _ => some (EventShelvingRules.acknowledge s.row.read)
    | .shelve until_ reason note =>
        EventShelvingRules.shelve s.row.read until_ (reason <|> note) a.now maxHours
    | .unshelve _ => some (EventShelvingRules.unshelve s.row.read)
  match decision with
  | some (.ok action) => some action
  | _ => none

/-- The write of the controller for an accepted request; `now` is the clock of its transaction. -/
def write (a : OperatorAction) (decided : ShelfAction) (now : ℤ) (s : StoredEpisode) :
    StoredEpisode :=
  match a.request with
  | .acknowledge note => s.acknowledgeAsync a.actor note now
  | .shelve until_ reason note =>
      s.shelveAsync a.actor until_ (trim ((reason <|> note).getD "")) (decided = .shelveUpdated) now
  | .unshelve reason => s.unshelveAsync a.actor reason now

end OperatorAction

def FrameStep.perform : FrameStep → StoredEpisode → Option StoredEpisode
  | .expireDue now, s => s.expireDueAsync now
  | .close now, s => s.closeAsync now

def eventActions (maxHours : ℤ) :
    CheckThenAct.Protocol StoredEpisode OperatorAction ShelfAction ℤ FrameStep :=
  { decide := OperatorAction.decide maxHours
    write := OperatorAction.write
    atomic := FrameStep.perform }

end OpenBridge.EventFrames
