import OpenBridge.Foundation.Json
import OpenBridge.Foundation.Machine

/-!
# Alarms: the deltas of an alarm's state

`AlarmStateExportJob.StateDeltaFunction` for one alarm key.  Records of the current state come in as
texts; the function keeps the last full state, merges acknowledgement updates into it, and emits
what changed.
-/

namespace OpenBridge.Alarms

open OpenBridge.Foundation

namespace AlarmStateExportJob

abbrev ObjectNode := Dict String Json

/-- The JSON library: the object that a record's text holds (`none` for a malformed one), and the
text it writes for an object. -/
structure ObjectMapper where
  readTree : String → Option ObjectNode
  writeValueAsString : ObjectNode → String

inductive ChangeType
  | insert
  | update
  | remove
  deriving DecidableEq

structure Delta where
  correlationId : String
  timestamp : ℤ
  changeType : ChangeType
  previousState : Option ObjectNode
  currentState : Option ObjectNode

/-- A record of the state topic, at the time (ms) it is processed. -/
structure StateRecord where
  now : ℤ
  json : String
  deriving DecidableEq

/-- The value of `previousState` with the time of its last write. -/
structure Held where
  text : String
  writtenAt : ℤ
  deriving DecidableEq

/-- `STATE_TTL`: seven days after a write the value is not returned any more. -/
def stateTtl : ℤ := 7 * 24 * 60 * 60 * 1000

/-- `previousState.value()`, which drops an expired value. -/
def live (held : Option Held) (now : ℤ) : Option Held :=
  held.filter fun h => decide (now < h.writtenAt + stateTtl)

/-- The `eventType` of a record, empty when it has none. -/
def eventType (current : ObjectNode) : String := JsonNode.asText (current.get? "eventType") ""

def isDelete (current : ObjectNode) : Bool :=
  eventType current == "ALARM_STATE_DELETE" ||
    (current.get? "action").any fun action => action.asText == "delete"

def isAckUpdate (current : ObjectNode) : Bool := eventType current == "ACK_STATE_UPDATE"

def mergeAck (previous current : ObjectNode) : ObjectNode :=
  let merged := previous.set "acknowledged"
    (.bool (JsonNode.asBoolean (current.get? "acknowledged") true))
  match current.get? "ackLifecycleState" with
  | some lifecycle => merged.set "ackLifecycleState" lifecycle
  | none => merged

variable (mapper : ObjectMapper) (id : String)

def processElement (held : Option Held) (r : StateRecord) : Option Held × List Delta :=
  match mapper.readTree r.json with
  | none => (held, [])
  | some current =>
      match live held r.now with
      | none =>
          if isDelete current then (none, [])
          else (some ⟨r.json, r.now⟩, [⟨id, r.now, .insert, none, some current⟩])
      | some prev =>
          -- a stored text was read or written before, so it reads
          let previous := (mapper.readTree prev.text).getD Dict.empty
          let merged := mergeAck previous current
          let next := if isAckUpdate current then merged else current
          let nextJson := if isAckUpdate current then mapper.writeValueAsString merged else r.json
          if isDelete current then (none, [⟨id, r.now, .remove, some previous, none⟩])
          else if prev.text ≠ nextJson then
            (some ⟨nextJson, r.now⟩, [⟨id, r.now, .update, some previous, some next⟩])
          else (some prev, [])

/-! ## What the deltas are for -/

/-- The alarm's full state after a record: a full record replaces it, a removal ends it, an
acknowledgement update changes the acknowledgement of an alarm there is. -/
def fullState (state : Option ObjectNode) (r : StateRecord) : Option ObjectNode :=
  match mapper.readTree r.json with
  | none => state
  | some current =>
      if isDelete current then none
      else if isAckUpdate current then state.map fun previous => mergeAck previous current
      else some current

/-- A delta that a consumer in a state can apply, with the state it gets to. -/
def Applies (state : Option ObjectNode) (d : Delta) (next : Option ObjectNode) : Prop :=
  d.previousState = state ∧ d.currentState = next ∧
    match d.changeType with
    | .insert => state = none ∧ next ≠ none
    | .update => state ≠ none ∧ next ≠ none
    | .remove => state ≠ none ∧ next = none

/-- A list of deltas that a consumer can apply one after the other. -/
def Replays (state : Option ObjectNode) : List Delta → Option ObjectNode → Prop
  | [], final => state = final
  | d :: rest, final => ∃ next, Applies state d next ∧ Replays next rest final

/-- `(INSERT UPDATE* REMOVE)*`, possibly with an unfinished last group. -/
inductive Groups : List ChangeType → Prop
  | nil : Groups []
  | unfinished (n : ℕ) : Groups (.insert :: List.replicate n .update)
  | finished (n : ℕ) {rest : List ChangeType} (h : Groups rest) :
      Groups (.insert :: (List.replicate n .update ++ .remove :: rest))

structure Reconstructs (records : List StateRecord) : Prop where
  /-- The kinds of the deltas form groups. -/
  language : Groups ((Machine.outputs (processElement mapper id) none records).map Delta.changeType)
  /-- Every delta starts where the one before it ended, and they end in the full state. -/
  replays : Replays none (Machine.outputs (processElement mapper id) none records)
    (records.foldl (fullState mapper) none)
  /-- No partial record is exported as a state. -/
  full : ∀ d ∈ Machine.outputs (processElement mapper id) none records, ∀ s,
    d.currentState = some s → isAckUpdate s = false

theorem replays_append {state middle final : Option ObjectNode} {ds es : List Delta}
    (h : Replays state ds middle) (h' : Replays middle es final) :
    Replays state (ds ++ es) final := by
  induction ds generalizing state with
  | nil => exact h ▸ h'
  | cons d rest ih =>
    obtain ⟨next, happly, hrest⟩ := h
    exact ⟨next, happly, ih hrest⟩

theorem groups_of_replays {state final : Option ObjectNode} {ds : List Delta}
    (h : Replays state ds final) :
    (state = none → Groups (ds.map Delta.changeType)) ∧
      (state ≠ none → Groups (.insert :: ds.map Delta.changeType)) := by
  induction ds generalizing state with
  | nil => exact ⟨fun _ => Groups.nil, fun _ => Groups.unfinished 0⟩
  | cons d rest ih =>
    obtain ⟨next, ⟨-, -, hkind⟩, hrest⟩ := h
    obtain ⟨hnone, hsome⟩ := ih hrest
    rw [List.map_cons]
    cases hd : d.changeType with
    | insert =>
      rw [hd] at hkind
      exact ⟨fun _ => hsome hkind.2, fun hne => absurd hkind.1 hne⟩
    | update =>
      rw [hd] at hkind
      refine ⟨fun heq => absurd heq hkind.1, fun _ => ?_⟩
      -- one update more in the group that is open
      have hopen := hsome hkind.2
      generalize rest.map Delta.changeType = kinds at hopen
      cases hopen with
      | unfinished n => exact Groups.unfinished (n + 1)
      | finished n hgroups => exact Groups.finished (n + 1) hgroups
    | remove =>
      rw [hd] at hkind
      exact ⟨fun heq => absurd heq hkind.1, fun _ => Groups.finished 0 (hnone hkind.2)⟩

/-! ## One record -/

variable {mapper id}

/-- A record that can be exported as it comes: the value it meets has not expired, and an
acknowledgement update meets a full state. -/
def Exportable (mapper : ObjectMapper) (held : Option Held) (r : StateRecord) : Prop :=
  ∀ current, mapper.readTree r.json = some current →
    live held r.now = held ∧ (isAckUpdate current → isDelete current = false → held ≠ none)

/-- The JSON library reads back what it writes for the merged state of a record. -/
def ReadsBack (mapper : ObjectMapper) (held : Option Held) (r : StateRecord) : Prop :=
  ∀ current, mapper.readTree r.json = some current → isAckUpdate current → ∀ h, held = some h →
    ∀ previous, mapper.readTree h.text = some previous →
      mapper.readTree (mapper.writeValueAsString (mergeAck previous current)) =
        some (mergeAck previous current)

/-- The stored text reads as the full state, which is no partial record. -/
def Agrees (mapper : ObjectMapper) (held : Option Held) (state : Option ObjectNode) : Prop :=
  (held.bind fun h => mapper.readTree h.text) = state ∧ (held = none ↔ state = none) ∧
    ∀ s, state = some s → isAckUpdate s = false

theorem isAckUpdate_mergeAck (previous current : ObjectNode) :
    isAckUpdate (mergeAck previous current) = isAckUpdate previous := by
  have hacknowledged : ∀ value, (previous.set "acknowledged" value).get? "eventType" =
      previous.get? "eventType" := fun value => Dict.get?_set_of_ne _ _ (by decide)
  unfold mergeAck isAckUpdate eventType
  dsimp only
  split
  · rw [Dict.get?_set_of_ne _ _ (by decide), hacknowledged]
  · rw [hacknowledged]

/-- What a step has to do for the consumer to stay at the full state. -/
structure Follows (mapper : ObjectMapper) (state : Option ObjectNode) (r : StateRecord)
    (result : Option Held × List Delta) : Prop where
  agrees : Agrees mapper result.1 (fullState mapper state r)
  replays : Replays state result.2 (fullState mapper state r)
  full : ∀ d ∈ result.2, ∀ s, d.currentState = some s → isAckUpdate s = false

theorem agrees_none : Agrees mapper none none := ⟨rfl, iff_of_true rfl rfl, by simp⟩

theorem agrees_some {h : Held} {s : ObjectNode} (hreads : mapper.readTree h.text = some s)
    (hwhole : isAckUpdate s = false) : Agrees mapper (some h) (some s) :=
  ⟨hreads, by simp, by simpa using hwhole⟩

theorem follows_nil {held : Option Held} {state : Option ObjectNode} {r : StateRecord}
    (hfull : fullState mapper state r = state) (hagrees : Agrees mapper held state) :
    Follows mapper state r (held, []) :=
  ⟨hfull.symm ▸ hagrees, hfull.symm, by simp⟩

theorem follows_singleton {held : Option Held} {state next : Option ObjectNode} {r : StateRecord}
    {d : Delta} (hfull : fullState mapper state r = next) (hagrees : Agrees mapper held next)
    (happlies : Applies state d next) (hwhole : ∀ s, next = some s → isAckUpdate s = false) :
    Follows mapper state r (held, [d]) := by
  subst hfull
  refine ⟨hagrees, ⟨_, happlies, rfl⟩, ?_⟩
  intro e he s hs
  rw [List.mem_singleton.mp he, happlies.2.1] at hs
  exact hwhole s hs

theorem follows_empty {r : StateRecord} {current : ObjectNode}
    (hr : mapper.readTree r.json = some current)
    (hack : isAckUpdate current → isDelete current = true) :
    Follows mapper none r
      (if isDelete current then (none, [])
       else (some ⟨r.json, r.now⟩, [⟨id, r.now, .insert, none, some current⟩])) := by
  split
  · rename_i hdelete
    exact follows_nil (by rw [fullState, hr]; simp [hdelete]) agrees_none
  · rename_i hdelete
    have hwhole : isAckUpdate current = false :=
      Bool.eq_false_iff.mpr fun hupdate => hdelete (hack hupdate)
    exact follows_singleton (by rw [fullState, hr]; simp [hdelete, hwhole])
      (agrees_some hr hwhole) ⟨rfl, rfl, rfl, by simp⟩ (by simpa using hwhole)

theorem follows_held {prev : Held} {previous current : ObjectNode} {r : StateRecord}
    (hr : mapper.readTree r.json = some current) (hprev : mapper.readTree prev.text = some previous)
    (hwhole : isAckUpdate previous = false)
    (hback : isAckUpdate current → mapper.readTree (mapper.writeValueAsString
      (mergeAck previous current)) = some (mergeAck previous current)) :
    Follows mapper (some previous) r
      (let merged := mergeAck previous current
       let next := if isAckUpdate current then merged else current
       let nextJson := if isAckUpdate current then mapper.writeValueAsString merged else r.json
       if isDelete current then (none, [⟨id, r.now, .remove, some previous, none⟩])
       else if prev.text ≠ nextJson then
         (some ⟨nextJson, r.now⟩, [⟨id, r.now, .update, some previous, some next⟩])
       else (some prev, [])) := by
  dsimp only
  split
  · rename_i hdelete
    exact follows_singleton (by rw [fullState, hr]; simp [hdelete]) agrees_none
      ⟨rfl, rfl, by simp⟩ (by simp)
  rename_i hdelete
  -- the next state, as the text that is compared with the stored one and as the object
  generalize hnext : (if isAckUpdate current then mergeAck previous current else current) = next
  generalize hjson : (if isAckUpdate current then
    mapper.writeValueAsString (mergeAck previous current) else r.json) = nextJson
  have hstate : fullState mapper (some previous) r = some next ∧
      mapper.readTree nextJson = some next ∧ isAckUpdate next = false := by
    rw [fullState, hr, ← hnext, ← hjson]
    by_cases hupdate : isAckUpdate current
    · simp only [hdelete, hupdate, if_true, Bool.false_eq_true, if_false, Option.map_some]
      exact ⟨trivial, hback hupdate, (isAckUpdate_mergeAck _ _).trans hwhole⟩
    · simp only [hdelete, hupdate, Bool.false_eq_true, if_false]
      exact ⟨trivial, hr, trivial⟩
  obtain ⟨hfull, hreads, hnextFull⟩ := hstate
  split
  · exact follows_singleton hfull (agrees_some hreads hnextFull) ⟨rfl, rfl, by simp⟩
      (by simpa using hnextFull)
  · rename_i hsame
    -- an unchanged text is an unchanged state
    rw [← not_not.mp hsame, hprev, Option.some_inj] at hreads
    subst hreads
    exact follows_nil hfull (agrees_some hprev hwhole)

theorem follows_processElement (id : String) {held : Option Held} {state : Option ObjectNode} {r : StateRecord}
    (hagrees : Agrees mapper held state) (hexport : Exportable mapper held r)
    (hback : ReadsBack mapper held r) :
    Follows mapper state r (processElement mapper id held r) := by
  obtain ⟨hreads, hnone, hwhole⟩ := hagrees
  unfold processElement
  cases hr : mapper.readTree r.json with
  | none => exact follows_nil (by rw [fullState, hr]) ⟨hreads, hnone, hwhole⟩
  | some current =>
    obtain ⟨hlive, hack⟩ := hexport current hr
    dsimp only
    rw [hlive]
    cases held with
    | none =>
      obtain rfl : state = none := hnone.mp rfl
      refine follows_empty hr fun hupdate => ?_
      by_contra hdelete
      exact hack hupdate (Bool.eq_false_iff.mpr hdelete) rfl
    | some prev =>
      obtain ⟨previous, rfl⟩ := Option.ne_none_iff_exists'.mp (fun h => by simpa using hnone.mpr h)
      have hprev : mapper.readTree prev.text = some previous := hreads
      dsimp only
      rw [hprev, Option.getD_some]
      exact follows_held hr hprev (hwhole previous rfl) fun hupdate =>
        hback current hr hupdate prev rfl previous hprev

theorem run_follows {records : List StateRecord}
    (hexport : Machine.Always (processElement mapper id) (Exportable mapper) none records)
    (hback : Machine.Always (processElement mapper id) (ReadsBack mapper) none records) :
    Agrees mapper (Machine.stateAfter (processElement mapper id) none records)
        (records.foldl (fullState mapper) none) ∧
      Replays none (Machine.outputs (processElement mapper id) none records)
        (records.foldl (fullState mapper) none) ∧
      ∀ d ∈ Machine.outputs (processElement mapper id) none records, ∀ s,
        d.currentState = some s → isAckUpdate s = false := by
  induction records using List.reverseRecOn with
  | nil => exact ⟨agrees_none, rfl, by simp⟩
  | append_singleton records r ih =>
    rw [Machine.always_concat] at hexport hback
    obtain ⟨hagrees, hreplays, hfull⟩ := ih hexport.1 hback.1
    have hstep := follows_processElement id hagrees hexport.2 hback.2
    rw [Machine.stateAfter_concat, Machine.outputs_concat, List.foldl_append]
    refine ⟨hstep.agrees, replays_append hreplays hstep.replays, ?_⟩
    intro d hd
    rcases List.mem_append.mp hd with hd | hd
    · exact hfull d hd
    · exact hstep.full d hd

/-- The deltas of records that can all be exported reconstruct the alarm's state. -/
theorem reconstructs_of_exportable (mapper : ObjectMapper) (id : String) (records : List StateRecord)
    (hexport : Machine.Always (processElement mapper id) (Exportable mapper) none records)
    (hback : Machine.Always (processElement mapper id) (ReadsBack mapper) none records) :
    Reconstructs mapper id records := by
  obtain ⟨-, hreplays, hfull⟩ := run_follows hexport hback
  exact ⟨(groups_of_replays hreplays).1 rfl, hreplays, hfull⟩

/-! ## An alarm that is raised and acknowledged -/

def raised : ObjectNode :=
  ((Dict.empty.set "alarmId" (.text "A1")).set "eventType" (.text "ALARM_STATE_UPSERT")).set
    "acknowledged" (.bool false)

def acked : ObjectNode :=
  ((Dict.empty.set "alarmId" (.text "A1")).set "eventType" (.text "ACK_STATE_UPDATE")).set
    "acknowledged" (.bool true)

def raisedText : String :=
  "\x7b\"alarmId\":\"A1\",\"eventType\":\"ALARM_STATE_UPSERT\",\"acknowledged\":false\x7d"

def ackedText : String :=
  "\x7b\"alarmId\":\"A1\",\"eventType\":\"ACK_STATE_UPDATE\",\"acknowledged\":true\x7d"

def mergedText : String :=
  "\x7b\"alarmId\":\"A1\",\"eventType\":\"ALARM_STATE_UPSERT\",\"acknowledged\":true\x7d"

def sampleMapper : ObjectMapper where
  readTree s :=
    if s = raisedText then some raised
    else if s = ackedText then some acked
    else if s = mergedText then some (mergeAck raised acked)
    else none
  writeValueAsString obj :=
    if JsonNode.asBoolean (obj.get? "acknowledged") false then mergedText else raisedText

theorem reconstructs_of_exportable_acknowledged :
    Reconstructs sampleMapper "A1" [⟨0, raisedText⟩, ⟨1000, ackedText⟩] := by
  refine reconstructs_of_exportable sampleMapper "A1" [⟨0, raisedText⟩, ⟨1000, ackedText⟩]
    ⟨?_, ?_, trivial⟩ ⟨?_, ?_, trivial⟩
  · rintro current ⟨⟩
    exact ⟨rfl, fun h => absurd h (by decide)⟩
  · rintro current ⟨⟩
    exact ⟨rfl, fun _ _ => by decide⟩
  · rintro current ⟨⟩ h
    exact absurd h (by decide)
  · rintro current ⟨⟩ _ h ⟨⟩ previous ⟨⟩
    rfl

/-- The acknowledgement alone: the partial record is exported as the alarm's state. -/
theorem partial_ack_exported : ¬ Reconstructs sampleMapper "A1" [⟨0, ackedText⟩] := by
  intro h
  have hwhole := h.full ⟨"A1", 0, .insert, none, some acked⟩ List.mem_cons_self acked rfl
  exact absurd hwhole (by decide)

end AlarmStateExportJob

end OpenBridge.Alarms
