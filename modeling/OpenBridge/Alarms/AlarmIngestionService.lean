import OpenBridge.Foundation.Json
import OpenBridge.Foundation.Machine

/-!
# Alarms: polling the alarm feed

`AlarmIngestionService`: every poll reads the alarms that are current, publishes an event for each
one that differs from the remembered snapshot, and a `CLEARED` event for each remembered alarm that
is gone.

`fold` is the equivalence of the dictionary's key comparer (`OrdinalIgnoreCase`), and `deserialize`
is `JsonSerializer.Deserialize` of a raw payload.
-/

namespace OpenBridge.Alarms

open OpenBridge.Foundation

namespace AlarmIngestionService

structure AlarmSnapshot where
  alarmId : String
  sourceName : String
  sourceEventId : String
  message : String
  priority : String
  condition : String
  state : String
  timestamp : String
  acknowledged : Bool
  deriving DecidableEq

structure HttpFeedAlarmRecord where
  correlationId : Option String
  sourceEventId : Option String
  eventName : Option String
  state : Option String
  severity : Option String
  priority : ℤ
  sourceTimestamp : Option String
  tagName : Option String
  description : Option String
  message : Option String
  acknowledged : Bool
  asset : Option String
  area : Option String
  site : Option String
  rawPayload : Option String
  deriving DecidableEq

/-- The event that is published: the fields of a snapshot, and the raw payload of the record. -/
structure RawAlarmEvent where
  snapshot : AlarmSnapshot
  rawPayload : Json

def isNullOrWhiteSpace (s : Option String) : Bool := s.all fun t => t.toList.all isWhiteSpace

def mapNumericPriority (priority : ℤ) : String :=
  if priority ≤ 1 then "CRITICAL"
  else if priority = 2 then "HIGH"
  else if priority = 3 then "MEDIUM"
  else "LOW"

def mapSeverityString (severity : String) : String :=
  let upper := toUpperInvariant severity
  if upper = "CRITICAL" then "CRITICAL"
  else if upper = "HIGH" then "HIGH"
  else if upper = "MEDIUM" then "MEDIUM"
  else "LOW"

/-- The second part of `CorrelationId.Split('|', 2, TrimEntries)`, when there are two. -/
def afterBar (correlationId : String) : Option String :=
  match correlationId.toList.dropWhile (· ≠ '|') with
  | [] => none
  | _ :: rest => some (trim (String.ofList rest))

def resolveConditionName (record : HttpFeedAlarmRecord) : String :=
  if ¬ isNullOrWhiteSpace record.description then record.description.getD ""
  else
    let part := if isNullOrWhiteSpace record.correlationId then none
      else afterBar (record.correlationId.getD "")
    if ¬ isNullOrWhiteSpace part then part.getD "" else record.eventName.getD "Alarm"

def feedId (record : HttpFeedAlarmRecord) : Option String :=
  if isNullOrWhiteSpace record.tagName ∧ isNullOrWhiteSpace record.correlationId then none
  else if ¬ isNullOrWhiteSpace record.correlationId then record.correlationId
  else some (record.tagName.getD "" ++ "|" ++ resolveConditionName record)

/-- `ToSnapshot`; `now` is the clock's text. -/
def toSnapshot (now : String) (record : HttpFeedAlarmRecord) (alarmId : String) : AlarmSnapshot where
  alarmId := alarmId
  sourceName := (record.tagName <|> record.asset <|> record.area <|> record.site).getD "HTTP Feed"
  sourceEventId := record.sourceEventId.getD ""
  message := (record.message <|> record.description).getD ""
  priority :=
    if ¬ isNullOrWhiteSpace record.severity then mapSeverityString (record.severity.getD "")
    else mapNumericPriority record.priority
  condition := resolveConditionName record
  state := if record.state.any (equalsIgnoreCase · "cleared") then "CLEARED" else "ACTIVE"
  timestamp := record.sourceTimestamp.getD now
  acknowledged := record.acknowledged

def parseRawPayload (deserialize : String → Option Json) (rawPayload : Option String) : Json :=
  if isNullOrWhiteSpace rawPayload then .object []
  else
    let text := rawPayload.getD ""
    (deserialize text).getD (.text text)

structure Enumeration where
  order : List (String × AlarmSnapshot) → List (String × AlarmSnapshot)
  perm : ∀ entries, (order entries).Perm entries

structure Poll where
  /-- The records of the response, none when it cannot be fetched or parsed. -/
  records : Option (List HttpFeedAlarmRecord)
  /-- The clock's text when an alarm is looked at. -/
  now : String → String
  /-- The order in which the remembered alarms are enumerated. -/
  enumeration : Enumeration
  /-- How many publishes succeed before one fails, if one does. -/
  fault : Option ℕ

/-- The state of a poll: the memory, the events published in it, and whether a publish failed. -/
structure Round where
  memory : Dict String AlarmSnapshot
  events : List RawAlarmEvent
  failed : Bool

/-- `PublishEventAsync`, and the update of the memory when it succeeds. -/
def Round.publish (fault : Option ℕ) (round : Round) (key : String) (event : RawAlarmEvent) :
    Round :=
  if fault = some round.events.length then { round with failed := true }
  else
    { memory := round.memory.set key event.snapshot
      events := round.events ++ [event]
      failed := false }

variable (fold : String → String) (deserialize : String → Option Json)

/-- The first loop of `PublishDeltaAsync`: a record of the response. -/
def publishRecord (poll : Poll) (round : Round) (record : HttpFeedAlarmRecord) : Round :=
  if round.failed then round
  else
    match feedId record with
    | none => round
    | some alarmId =>
        let snapshot := toSnapshot (poll.now alarmId) record alarmId
        if round.memory.get? (fold alarmId) = some snapshot then round
        else round.publish poll.fault (fold alarmId)
          ⟨snapshot, parseRawPayload deserialize record.rawPayload⟩

def currentIds (records : List HttpFeedAlarmRecord) : List String :=
  records.filterMap fun record => (feedId record).map fold

/-- The `CLEARED` event of a remembered alarm. -/
def clearedEvent (now : String → String) (snapshot : AlarmSnapshot) : RawAlarmEvent :=
  ⟨{ snapshot with state := "CLEARED", timestamp := now snapshot.alarmId }, .object []⟩

def publishCleared (poll : Poll) (current : List String) (round : Round)
    (kv : String × AlarmSnapshot) : Round :=
  if round.failed then round
  else if kv.1 ∈ current then round
  else if kv.2.state = "CLEARED" then round
  else round.publish poll.fault kv.1 (clearedEvent poll.now kv.2)

/-- `PublishDeltaAsync`. -/
def publishDelta (memory : Dict String AlarmSnapshot) (poll : Poll)
    (records : List HttpFeedAlarmRecord) : Round :=
  let round := records.foldl (publishRecord fold deserialize poll) ⟨memory, [], false⟩
  (poll.enumeration.order round.memory.entries).foldl
    (publishCleared poll (currentIds fold records)) round

/-- A poll: a response that cannot be parsed throws before anything is published. -/
def step (memory : Dict String AlarmSnapshot) (poll : Poll) :
    Dict String AlarmSnapshot × List RawAlarmEvent :=
  match poll.records with
  | none => (memory, [])
  | some records =>
      let round := publishDelta fold deserialize memory poll records
      (round.memory, round.events)

def Succeeds (memory : Dict String AlarmSnapshot) (poll : Poll) : Prop :=
  ∀ records, poll.records = some records →
    (publishDelta fold deserialize memory poll records).failed = false

/-! ## What the polls are for -/

def eventsOf (key : String) (events : List RawAlarmEvent) : List RawAlarmEvent :=
  events.filter fun event => fold event.snapshot.alarmId = key

def lastEvent (key : String) (events : List RawAlarmEvent) : Option RawAlarmEvent :=
  (eventsOf fold key events).getLast?

/-- The event that a response calls for, when a snapshot was published last: the record's when it
differs, `CLEARED` when there is no record any more. -/
def due (poll : Poll) (records : List HttpFeedAlarmRecord) (key : String)
    (last : Option AlarmSnapshot) : Option RawAlarmEvent :=
  match records.find? fun record => (feedId record).map fold = some key with
  | some record =>
      let alarmId := (feedId record).getD ""
      let snapshot := toSnapshot (poll.now alarmId) record alarmId
      if last = some snapshot then none
      else some ⟨snapshot, parseRawPayload deserialize record.rawPayload⟩
  | none =>
      (last.filter fun snapshot => snapshot.state ≠ "CLEARED").map (clearedEvent poll.now)

/-! ## One pass over keys -/

variable {fold deserialize}

abbrev Offer := String × (Option AlarmSnapshot → Option RawAlarmEvent)

def visit (fault : Option ℕ) (round : Round) (offer : Offer) : Round :=
  if round.failed then round
  else
    match offer.2 (round.memory.get? offer.1) with
    | none => round
    | some event => round.publish fault offer.1 event

def Offer.Own (fold : String → String) (offer : Offer) : Prop :=
  ∀ last event, offer.2 last = some event → fold event.snapshot.alarmId = offer.1

/-- What a pass does for a key that an event is due for, if any: it publishes and remembers the
event, or leaves the key as it was, when no event is due or a publish has failed. -/
inductive Outcome (fold : String → String) (key : String) (new : Option RawAlarmEvent)
    (before after : Round) : Prop
  | kept (hmemory : after.memory.get? key = before.memory.get? key)
      (hevents : eventsOf fold key after.events = eventsOf fold key before.events)
      (hnone : new = none ∨ after.failed = true)
  | published (event : RawAlarmEvent) (hnew : new = some event)
      (hmemory : after.memory.get? key = some event.snapshot)
      (hevents : eventsOf fold key after.events = eventsOf fold key before.events ++ [event])

theorem eventsOf_concat {key : String} (events : List RawAlarmEvent) (event : RawAlarmEvent) :
    eventsOf fold key (events ++ [event]) = eventsOf fold key events ++
      if fold event.snapshot.alarmId = key then [event] else [] := by
  unfold eventsOf
  rw [List.filter_append, List.filter_singleton]
  simp only [Bool.cond_decide]

theorem visit_of_failed {fault : Option ℕ} {round : Round} (offer : Offer)
    (h : round.failed = true) : visit fault round offer = round := by
  rw [visit, if_pos h]

theorem foldl_visit_of_failed {fault : Option ℕ} {round : Round} (offers : List Offer)
    (h : round.failed = true) : offers.foldl (visit fault) round = round := by
  induction offers with
  | nil => rfl
  | cons offer rest ih => rw [List.foldl_cons, visit_of_failed offer h, ih]

theorem visit_self (fault : Option ℕ) (round : Round) {offer : Offer} (hown : offer.Own fold) :
    Outcome fold offer.1 (offer.2 (round.memory.get? offer.1)) round
      (visit fault round offer) := by
  unfold visit
  split
  · rename_i hfailed
    exact .kept rfl rfl (Or.inr hfailed)
  split
  · rename_i hnone
    exact .kept rfl rfl (Or.inl hnone)
  · rename_i event hevent
    unfold Round.publish
    split
    · exact .kept rfl rfl (Or.inr rfl)
    · refine .published event hevent (Dict.get?_set_self _ _ _) ?_
      rw [eventsOf_concat, if_pos (hown _ _ hevent)]

theorem visit_of_ne (fault : Option ℕ) (round : Round) {offer : Offer} {key : String}
    (hown : offer.Own fold) (hne : key ≠ offer.1) :
    Outcome fold key none round (visit fault round offer) := by
  unfold visit
  split
  · exact .kept rfl rfl (Or.inl rfl)
  split
  · exact .kept rfl rfl (Or.inl rfl)
  · rename_i event hevent
    unfold Round.publish
    split
    · exact .kept rfl rfl (Or.inl rfl)
    · refine .kept (Dict.get?_set_of_ne _ _ hne) ?_ (Or.inl rfl)
      rw [eventsOf_concat, if_neg, List.append_nil]
      rw [hown _ _ hevent]
      exact hne.symm

theorem Outcome.trans_none {key : String} {new : Option RawAlarmEvent}
    {before middle after : Round} (h : Outcome fold key new before middle)
    (h' : Outcome fold key none middle after)
    (hfailed : middle.failed = true → after.failed = true) :
    Outcome fold key new before after := by
  cases h' with
  | published event hnew => cases hnew
  | kept hmemory' hevents' =>
    cases h with
    | kept hmemory hevents hnone =>
      exact .kept (hmemory'.trans hmemory) (hevents'.trans hevents) (hnone.imp_right hfailed)
    | published event hnew hmemory hevents =>
      exact .published event hnew (hmemory'.trans hmemory) (hevents'.trans hevents)

theorem Outcome.none_trans {key : String} {new : Option RawAlarmEvent}
    {before middle after : Round} (h : Outcome fold key none before middle)
    (h' : Outcome fold key new middle after) : Outcome fold key new before after := by
  cases h with
  | published event hnew => cases hnew
  | kept hmemory hevents =>
    cases h' with
    | kept hmemory' hevents' hnone =>
      exact .kept (hmemory'.trans hmemory) (hevents'.trans hevents) hnone
    | published event hnew hmemory' hevents' =>
      exact .published event hnew hmemory' (by rw [hevents', hevents])

theorem Outcome.memory_eq {key : String} {before after : Round}
    (h : Outcome fold key none before after) :
    after.memory.get? key = before.memory.get? key := by
  cases h with
  | kept hmemory => exact hmemory
  | published event hnew => cases hnew

theorem foldl_visit_of_not_mem (fault : Option ℕ) {offers : List Offer} (round : Round)
    {key : String} (hown : ∀ offer ∈ offers, offer.Own fold)
    (hkey : key ∉ offers.map Prod.fst) :
    Outcome fold key none round (offers.foldl (visit fault) round) := by
  induction offers generalizing round with
  | nil => exact .kept rfl rfl (Or.inl rfl)
  | cons offer rest ih =>
    rw [List.map_cons, List.mem_cons, not_or] at hkey
    rw [List.foldl_cons]
    exact (visit_of_ne fault round (hown offer List.mem_cons_self) hkey.1).none_trans
      (ih _ (fun o ho => hown o (List.mem_cons_of_mem _ ho)) hkey.2)

theorem foldl_visit_of_mem (fault : Option ℕ) {offers : List Offer} (round : Round)
    {offer : Offer} (hown : ∀ offer ∈ offers, offer.Own fold)
    (hkeys : (offers.map Prod.fst).Nodup) (hmem : offer ∈ offers) :
    Outcome fold offer.1 (offer.2 (round.memory.get? offer.1)) round
      (offers.foldl (visit fault) round) := by
  induction offers generalizing round with
  | nil => cases hmem
  | cons first rest ih =>
    rw [List.map_cons, List.nodup_cons] at hkeys
    have hrest : ∀ o ∈ rest, o.Own fold := fun o ho => hown o (List.mem_cons_of_mem _ ho)
    rw [List.foldl_cons]
    rcases List.mem_cons.mp hmem with rfl | hmem
    · refine (visit_self fault round (hown offer List.mem_cons_self)).trans_none
        (foldl_visit_of_not_mem fault _ hrest hkeys.1) fun hfailed => ?_
      rw [foldl_visit_of_failed rest hfailed, hfailed]
    · have hne : offer.1 ≠ first.1 := fun heq => hkeys.1 (heq ▸ List.mem_map_of_mem hmem)
      have hleft := visit_of_ne fault round (hown first List.mem_cons_self) hne
      have hrestOutcome := ih (visit fault round first) hrest hkeys.2 hmem
      rw [hleft.memory_eq] at hrestOutcome
      exact hleft.none_trans hrestOutcome

/-! ## The two loops of a poll -/

variable (fold deserialize)

def recordOffer (poll : Poll) (record : HttpFeedAlarmRecord) : Option Offer :=
  (feedId record).map fun alarmId =>
    (fold alarmId, fun last =>
      if last = some (toSnapshot (poll.now alarmId) record alarmId) then none
      else some ⟨toSnapshot (poll.now alarmId) record alarmId,
        parseRawPayload deserialize record.rawPayload⟩)

def clearedOffer (poll : Poll) (current : List String) (kv : String × AlarmSnapshot) : Offer :=
  (kv.1, fun _ =>
    if kv.1 ∈ current then none
    else if kv.2.state = "CLEARED" then none
    else some (clearedEvent poll.now kv.2))

variable {fold deserialize}

theorem foldl_publishRecord (poll : Poll) (records : List HttpFeedAlarmRecord) (round : Round) :
    records.foldl (publishRecord fold deserialize poll) round =
      (records.filterMap (recordOffer fold deserialize poll)).foldl (visit poll.fault) round := by
  induction records generalizing round with
  | nil => rfl
  | cons record rest ih =>
    rw [List.foldl_cons, ih, List.filterMap_cons]
    unfold publishRecord recordOffer
    cases hid : feedId record with
    | none => simp
    | some alarmId =>
      simp only [Option.map_some, List.foldl_cons]
      congr 1
      unfold visit
      dsimp only
      split
      · rfl
      · split
        · rfl
        · rfl

theorem foldl_publishCleared (poll : Poll) (current : List String)
    (entries : List (String × AlarmSnapshot)) (round : Round) :
    entries.foldl (publishCleared poll current) round =
      (entries.map (clearedOffer poll current)).foldl (visit poll.fault) round := by
  rw [List.foldl_map]
  congr 1
  funext round kv
  unfold publishCleared visit clearedOffer
  dsimp only
  split
  · rfl
  · split
    · rfl
    · split
      · rfl
      · rfl

theorem map_fst_recordOffers (poll : Poll) (records : List HttpFeedAlarmRecord) :
    (records.filterMap (recordOffer fold deserialize poll)).map Prod.fst =
      currentIds fold records := by
  rw [List.map_filterMap]
  unfold currentIds recordOffer
  congr 1
  funext record
  rw [Option.map_map]
  rfl

theorem own_recordOffer {poll : Poll} {records : List HttpFeedAlarmRecord} :
    ∀ offer ∈ records.filterMap (recordOffer fold deserialize poll), offer.Own fold := by
  intro offer hoffer last event hevent
  obtain ⟨record, -, hrecord⟩ := List.mem_filterMap.mp hoffer
  obtain ⟨alarmId, -, rfl⟩ := Option.map_eq_some_iff.mp hrecord
  dsimp only at hevent
  split at hevent
  · cases hevent
  · obtain rfl := Option.some.inj hevent
    rfl

def Keyed (fold : String → String) (memory : Dict String AlarmSnapshot) : Prop :=
  ∀ key snapshot, memory.get? key = some snapshot → fold snapshot.alarmId = key

theorem own_clearedOffer {poll : Poll} {current : List String} {memory : Dict String AlarmSnapshot}
    (h : Keyed fold memory) {kv : String × AlarmSnapshot} (hkv : kv ∈ memory.entries) :
    (clearedOffer poll current kv).Own fold := by
  intro last event hevent
  unfold clearedOffer at hevent
  dsimp only at hevent
  split at hevent
  · cases hevent
  split at hevent
  · cases hevent
  obtain rfl := Option.some.inj hevent
  exact h kv.1 kv.2 (Dict.get?_eq_some_iff.mpr hkv)

theorem keyed_foldl {fault : Option ℕ} {offers : List Offer} {round : Round}
    (hown : ∀ offer ∈ offers, offer.Own fold) (h : Keyed fold round.memory) :
    Keyed fold (offers.foldl (visit fault) round).memory := by
  induction offers generalizing round with
  | nil => exact h
  | cons offer rest ih =>
    refine ih (fun o ho => hown o (List.mem_cons_of_mem _ ho)) ?_
    intro key snapshot hget
    by_cases hkey : key = offer.1
    · subst hkey
      cases visit_self fault round (hown offer List.mem_cons_self) with
      | kept hmemory => exact h _ _ (hmemory ▸ hget)
      | published event hevent hmemory =>
        rw [hmemory, Option.some_inj] at hget
        exact hget ▸ hown offer List.mem_cons_self _ _ hevent
    · have hleft := visit_of_ne fault round (hown offer List.mem_cons_self) hkey
      exact h _ _ (hleft.memory_eq ▸ hget)

def Poll.WellFormed (fold : String → String) (poll : Poll) : Prop :=
  ∀ records, poll.records = some records → (currentIds fold records).Nodup

theorem outcome_cleared (poll : Poll) (current : List String) {round : Round} (key : String)
    (hkeyed : Keyed fold round.memory) :
    Outcome fold key
      (if key ∈ current then none
       else ((round.memory.get? key).filter fun s => s.state ≠ "CLEARED").map
        (clearedEvent poll.now))
      round ((poll.enumeration.order round.memory.entries).foldl
        (publishCleared poll current) round) := by
  have hperm := poll.enumeration.perm round.memory.entries
  have hown : ∀ offer ∈ (poll.enumeration.order round.memory.entries).map
      (clearedOffer poll current), offer.Own fold := by
    intro offer hoffer
    obtain ⟨kv, hkv, rfl⟩ := List.mem_map.mp hoffer
    exact own_clearedOffer hkeyed (hperm.mem_iff.mp hkv)
  have hkeys : ((poll.enumeration.order round.memory.entries).map
      (clearedOffer poll current)).map Prod.fst =
      (poll.enumeration.order round.memory.entries).map Prod.fst := by
    rw [List.map_map]
    rfl
  rw [foldl_publishCleared]
  cases hget : round.memory.get? key with
  | none =>
    have hkey : key ∉ (poll.enumeration.order round.memory.entries).map Prod.fst := by
      rw [(hperm.map Prod.fst).mem_iff]
      exact Dict.get?_eq_none_iff.mp hget
    simp only [Option.filter_none, Option.map_none, ite_self]
    exact foldl_visit_of_not_mem _ _ hown (hkeys ▸ hkey)
  | some snapshot =>
    have hmem : (key, snapshot) ∈ poll.enumeration.order round.memory.entries :=
      hperm.mem_iff.mpr (Dict.get?_eq_some_iff.mp hget)
    have hnodup : ((poll.enumeration.order round.memory.entries).map Prod.fst).Nodup :=
      (hperm.map Prod.fst).nodup_iff.mpr round.memory.keys_nodup
    have houtcome := foldl_visit_of_mem poll.fault round hown
      (hkeys ▸ hnodup) (List.mem_map_of_mem hmem)
    by_cases hcleared : snapshot.state = "CLEARED"
    · simpa [clearedOffer, hcleared, Option.filter] using houtcome
    · simpa [clearedOffer, hcleared, Option.filter] using houtcome

theorem failed_publishCleared {poll : Poll} {current : List String}
    {entries : List (String × AlarmSnapshot)} {round : Round} (h : round.failed = true) :
    (entries.foldl (publishCleared poll current) round).failed = true := by
  rw [foldl_publishCleared, foldl_visit_of_failed _ h, h]

theorem outcome_publishDelta {memory : Dict String AlarmSnapshot} {poll : Poll}
    {records : List HttpFeedAlarmRecord} (hkeyed : Keyed fold memory)
    (hnodup : (currentIds fold records).Nodup) (key : String) :
    Outcome fold key (due fold deserialize poll records key (memory.get? key))
      ⟨memory, [], false⟩ (publishDelta fold deserialize memory poll records) := by
  have hown : ∀ offer ∈ records.filterMap (recordOffer fold deserialize poll), offer.Own fold :=
    own_recordOffer
  have hkeys : (records.filterMap (recordOffer fold deserialize poll)).map Prod.fst =
      currentIds fold records := map_fst_recordOffers poll records
  have hround : Keyed fold (records.foldl (publishRecord fold deserialize poll)
      ⟨memory, [], false⟩).memory := by
    rw [foldl_publishRecord]
    exact keyed_foldl hown hkeyed
  have hcleared := outcome_cleared poll (currentIds fold records) key hround
  unfold publishDelta due
  dsimp only
  cases hfind : records.find? fun record => (feedId record).map fold = some key with
  | some record =>
    have hkey : (feedId record).map fold = some key := by simpa using List.find?_some hfind
    obtain ⟨alarmId, hid, hfold⟩ := Option.map_eq_some_iff.mp hkey
    have hmem : key ∈ currentIds fold records :=
      List.mem_filterMap.mpr ⟨record, List.mem_of_find?_eq_some hfind, hkey⟩
    have hoffer : (fold alarmId, fun last =>
        if last = some (toSnapshot (poll.now alarmId) record alarmId) then none
        else some ⟨toSnapshot (poll.now alarmId) record alarmId,
          parseRawPayload deserialize record.rawPayload⟩) ∈
        records.filterMap (recordOffer fold deserialize poll) := by
      refine List.mem_filterMap.mpr ⟨record, List.mem_of_find?_eq_some hfind, ?_⟩
      rw [recordOffer, hid, Option.map_some]
    have houtcome := foldl_visit_of_mem poll.fault ⟨memory, [], false⟩ hown (hkeys ▸ hnodup) hoffer
    rw [← foldl_publishRecord, hfold] at houtcome
    rw [if_pos hmem] at hcleared
    simp only [hid, Option.getD_some]
    exact houtcome.trans_none hcleared failed_publishCleared
  | none =>
    have hmem : key ∉ currentIds fold records := by
      intro hmem
      obtain ⟨record, hrecord, hkey⟩ := List.mem_filterMap.mp hmem
      exact List.find?_eq_none.mp hfind record hrecord (decide_eq_true hkey)
    have houtcome := foldl_visit_of_not_mem poll.fault ⟨memory, [], false⟩ hown (hkeys ▸ hmem)
    rw [← foldl_publishRecord] at houtcome
    rw [if_neg hmem, houtcome.memory_eq] at hcleared
    exact houtcome.none_trans hcleared

/-! ## Runs of polls -/

theorem keyed_publishDelta {memory : Dict String AlarmSnapshot} {poll : Poll}
    {records : List HttpFeedAlarmRecord} (h : Keyed fold memory) :
    Keyed fold (publishDelta fold deserialize memory poll records).memory := by
  unfold publishDelta
  dsimp only
  rw [foldl_publishRecord, foldl_publishCleared]
  have hround : Keyed fold ((records.filterMap (recordOffer fold deserialize poll)).foldl
      (visit poll.fault) ⟨memory, [], false⟩).memory := keyed_foldl own_recordOffer h
  refine keyed_foldl ?_ hround
  intro offer hoffer
  obtain ⟨kv, hkv, rfl⟩ := List.mem_map.mp hoffer
  exact own_clearedOffer hround ((poll.enumeration.perm _).mem_iff.mp hkv)

theorem eventsOf_append (key : String) (xs ys : List RawAlarmEvent) :
    eventsOf fold key (xs ++ ys) = eventsOf fold key xs ++ eventsOf fold key ys :=
  List.filter_append ..

def Remembers (fold : String → String) (history : List RawAlarmEvent)
    (memory : Dict String AlarmSnapshot) : Prop :=
  ∀ key, memory.get? key = (lastEvent fold key history).map RawAlarmEvent.snapshot

theorem remembers_append {history : List RawAlarmEvent} {memory : Dict String AlarmSnapshot}
    {new : String → Option RawAlarmEvent} {after : Round} (h : Remembers fold history memory)
    (houtcome : ∀ key, Outcome fold key (new key) ⟨memory, [], false⟩ after) :
    Remembers fold (history ++ after.events) after.memory := by
  intro key
  unfold lastEvent
  rw [eventsOf_append]
  cases houtcome key with
  | kept hmemory hevents =>
    have hevents : eventsOf fold key after.events = [] := hevents
    rw [hmemory, hevents, List.append_nil]
    exact h key
  | published event _ hmemory hevents =>
    have hevents : eventsOf fold key after.events = [event] := hevents
    rw [hmemory, hevents, List.getLast?_concat, Option.map_some]

theorem step_unparsed {memory : Dict String AlarmSnapshot} {poll : Poll}
    (h : poll.records = none) : step fold deserialize memory poll = (memory, []) := by
  rw [step, h]

theorem step_parsed {memory : Dict String AlarmSnapshot} {poll : Poll}
    {records : List HttpFeedAlarmRecord} (h : poll.records = some records) :
    step fold deserialize memory poll =
      ((publishDelta fold deserialize memory poll records).memory,
        (publishDelta fold deserialize memory poll records).events) := by
  rw [step, h]

theorem run_remembers {polls : List Poll} (h : ∀ poll ∈ polls, poll.WellFormed fold) :
    Keyed fold (Machine.stateAfter (step fold deserialize) Dict.empty polls) ∧
      Remembers fold (Machine.outputs (step fold deserialize) Dict.empty polls)
        (Machine.stateAfter (step fold deserialize) Dict.empty polls) := by
  induction polls using List.reverseRecOn with
  | nil =>
    refine ⟨?_, fun _ => rfl⟩
    intro key snapshot hget
    cases hget
  | append_singleton polls poll ih =>
    obtain ⟨hkeyed, hremembers⟩ := ih fun p hp => h p (List.mem_append_left _ hp)
    rw [Machine.stateAfter_concat, Machine.outputs_concat]
    generalize Machine.stateAfter (step fold deserialize) Dict.empty polls = memory at *
    cases hrecords : poll.records with
    | none =>
      rw [step_unparsed hrecords, List.append_nil]
      exact ⟨hkeyed, hremembers⟩
    | some records =>
      have hnodup := h poll List.mem_concat_self records hrecords
      rw [step_parsed hrecords]
      exact ⟨keyed_publishDelta hkeyed,
        remembers_append hremembers fun key => outcome_publishDelta hkeyed hnodup key⟩

/-- What a poll publishes for a key, after a history of published events. -/
structure FollowsFeed (fold : String → String) (deserialize : String → Option Json) (poll : Poll)
    (key : String) (succeeds : Prop) (history events : List RawAlarmEvent) : Prop where
  /-- When no publish fails, the last event is the record's. -/
  latest : ∀ records record alarmId, poll.records = some records → record ∈ records →
    feedId record = some alarmId → fold alarmId = key → succeeds →
    (lastEvent fold key (history ++ events)).map RawAlarmEvent.snapshot =
      some (toSnapshot (poll.now alarmId) record alarmId)
  /-- Or `CLEARED`, when there is no record. -/
  gone : ∀ records event, poll.records = some records → key ∉ currentIds fold records →
    succeeds → lastEvent fold key (history ++ events) = some event →
    event.snapshot.state = "CLEARED"
  /-- An alarm that is as it was published last is not published. -/
  unchanged : ∀ records record alarmId, poll.records = some records → record ∈ records →
    feedId record = some alarmId → fold alarmId = key →
    (lastEvent fold key history).map RawAlarmEvent.snapshot =
      some (toSnapshot (poll.now alarmId) record alarmId) →
    eventsOf fold key events = []
  /-- An alarm that is gone is cleared by one event, and not again. -/
  cleared : ∀ records event, poll.records = some records → key ∉ currentIds fold records →
    lastEvent fold key history = some event →
    (event.snapshot.state = "CLEARED" → eventsOf fold key events = []) ∧
    (event.snapshot.state ≠ "CLEARED" →
      (eventsOf fold key events = [clearedEvent poll.now event.snapshot] ∨
        eventsOf fold key events = []) ∧
      (succeeds → eventsOf fold key events = [clearedEvent poll.now event.snapshot]))
  /-- A cleared alarm whose record is active is published as active. -/
  reappears : ∀ records record alarmId event, poll.records = some records → record ∈ records →
    feedId record = some alarmId → fold alarmId = key → lastEvent fold key history = some event →
    event.snapshot.state = "CLEARED" →
    (toSnapshot (poll.now alarmId) record alarmId).state = "ACTIVE" → succeeds →
    eventsOf fold key events = [⟨toSnapshot (poll.now alarmId) record alarmId,
      parseRawPayload deserialize record.rawPayload⟩]
  /-- A response that does not parse publishes nothing. -/
  unparsed : poll.records = none → events = []

theorem due_of_mem {poll : Poll} {records : List HttpFeedAlarmRecord}
    {record : HttpFeedAlarmRecord} {alarmId : String} (hnodup : (currentIds fold records).Nodup)
    (hmem : record ∈ records) (hid : feedId record = some alarmId)
    (last : Option AlarmSnapshot) : due fold deserialize poll records (fold alarmId) last =
      if last = some (toSnapshot (poll.now alarmId) record alarmId) then none
      else some ⟨toSnapshot (poll.now alarmId) record alarmId,
        parseRawPayload deserialize record.rawPayload⟩ := by
  have hfind : records.find? (fun r => (feedId r).map fold = some (fold alarmId)) =
      some record := by
    induction records with
    | nil => cases hmem
    | cons first rest ih =>
      unfold currentIds at hnodup
      rw [List.filterMap_cons] at hnodup
      rcases List.mem_cons.mp hmem with rfl | hmem
      · exact List.find?_cons_of_pos (by simp [hid])
      · have hlater : fold alarmId ∈ rest.filterMap fun r => (feedId r).map fold :=
          List.mem_filterMap.mpr ⟨record, hmem, by rw [hid, Option.map_some]⟩
        cases hfirst : (feedId first).map fold with
        | none =>
          rw [hfirst] at hnodup
          rw [List.find?_cons_of_neg (by simp [hfirst])]
          exact ih hnodup hmem
        | some key =>
          rw [hfirst, List.nodup_cons] at hnodup
          rw [List.find?_cons_of_neg]
          · exact ih hnodup.2 hmem
          · rw [hfirst, decide_eq_true_eq, Option.some_inj]
            rintro rfl
            exact hnodup.1 hlater
  rw [due, hfind]
  simp only [hid, Option.getD_some]

theorem due_of_not_mem {poll : Poll} {records : List HttpFeedAlarmRecord} {key : String}
    (hkey : key ∉ currentIds fold records) (last : Option AlarmSnapshot) :
    due fold deserialize poll records key last =
      (last.filter fun s => s.state ≠ "CLEARED").map (clearedEvent poll.now) := by
  have hfind : records.find? (fun r => (feedId r).map fold = some key) = none := by
    refine List.find?_eq_none.mpr fun record hrecord hmap => hkey ?_
    exact List.mem_filterMap.mpr ⟨record, hrecord, of_decide_eq_true hmap⟩
  rw [due, hfind]

theorem eventsOf_of_succeeds {key : String} {new : Option RawAlarmEvent}
    {memory : Dict String AlarmSnapshot} {after : Round}
    (h : Outcome fold key new ⟨memory, [], false⟩ after) (hsucceeds : after.failed = false) :
    eventsOf fold key after.events = new.toList := by
  cases h with
  | kept hmemory hevents hnone =>
    rcases hnone with rfl | hfailed
    · exact hevents
    · rw [hsucceeds] at hfailed
      cases hfailed
  | published event hnew hmemory hevents =>
    rw [hnew]
    exact hevents

theorem eventsOf_of_outcome {key : String} {new : Option RawAlarmEvent}
    {memory : Dict String AlarmSnapshot} {after : Round}
    (h : Outcome fold key new ⟨memory, [], false⟩ after) :
    eventsOf fold key after.events = new.toList ∨ eventsOf fold key after.events = [] := by
  cases h with
  | kept hmemory hevents hnone => exact Or.inr hevents
  | published event hnew hmemory hevents =>
    rw [hnew]
    exact Or.inl hevents

/-- Every poll of a run follows the feed: for each alarm, the event published last has the fields of
its record in the latest response, or is `CLEARED`, apart from the raw payload. -/
theorem polls_follow_feed (fold : String → String) (deserialize : String → Option Json)
    (polls : List Poll) (poll : Poll) (h : ∀ p ∈ polls ++ [poll], p.WellFormed fold)
    (key : String) :
    FollowsFeed fold deserialize poll key
      (Succeeds fold deserialize
        (Machine.stateAfter (step fold deserialize) Dict.empty polls) poll)
      (Machine.outputs (step fold deserialize) Dict.empty polls)
      (step fold deserialize
        (Machine.stateAfter (step fold deserialize) Dict.empty polls) poll).2 := by
  obtain ⟨hkeyed, hremembers⟩ := run_remembers fun p hp => h p (List.mem_append_left _ hp)
  have hwell := h poll List.mem_concat_self
  generalize Machine.stateAfter (step fold deserialize) Dict.empty polls = memory at *
  generalize Machine.outputs (step fold deserialize) Dict.empty polls = history at *
  -- what is published and remembered for the key, when the response parses
  have houtcome : ∀ records, poll.records = some records →
      Outcome fold key (due fold deserialize poll records key (memory.get? key))
        ⟨memory, [], false⟩ (publishDelta fold deserialize memory poll records) :=
    fun records hrecords => outcome_publishDelta hkeyed (hwell records hrecords) key
  have hdue : ∀ records, poll.records = some records →
      Succeeds fold deserialize memory poll →
      eventsOf fold key (step fold deserialize memory poll).2 =
        (due fold deserialize poll records key
          ((lastEvent fold key history).map RawAlarmEvent.snapshot)).toList := by
    intro records hrecords hsucceeds
    rw [step_parsed hrecords, ← hremembers key]
    exact eventsOf_of_succeeds (houtcome records hrecords) (hsucceeds records hrecords)
  have hmaybe : ∀ records, poll.records = some records →
      eventsOf fold key (step fold deserialize memory poll).2 =
        (due fold deserialize poll records key
          ((lastEvent fold key history).map RawAlarmEvent.snapshot)).toList ∨
      eventsOf fold key (step fold deserialize memory poll).2 = [] := by
    intro records hrecords
    rw [step_parsed hrecords, ← hremembers key]
    exact eventsOf_of_outcome (houtcome records hrecords)
  have hlast : ∀ records, poll.records = some records →
      Succeeds fold deserialize memory poll →
      lastEvent fold key (history ++ (step fold deserialize memory poll).2) =
        (due fold deserialize poll records key
          ((lastEvent fold key history).map RawAlarmEvent.snapshot)).or
          (lastEvent fold key history) := by
    intro records hrecords hsucceeds
    unfold lastEvent
    rw [eventsOf_append, hdue records hrecords hsucceeds]
    unfold lastEvent
    generalize due fold deserialize poll records key _ = new
    cases new with
    | none => simp
    | some event => simp
  constructor
  case latest =>
    rintro records record alarmId hrecords hmem hid rfl hsucceeds
    rw [hlast records hrecords hsucceeds, due_of_mem (hwell records hrecords) hmem hid]
    split
    · rename_i hsame
      rw [Option.none_or, hsame]
    · rfl
  case gone =>
    intro records event hrecords hkey hsucceeds hevent
    rw [hlast records hrecords hsucceeds, due_of_not_mem hkey] at hevent
    cases hprevious : lastEvent fold key history with
    | none => simp [hprevious] at hevent
    | some previous =>
      rw [hprevious] at hevent
      by_cases hcleared : previous.snapshot.state = "CLEARED"
      · simp only [Option.map_some, Option.filter_some, hcleared, ne_eq, not_true_eq_false,
          decide_false, Bool.false_eq_true, if_false, Option.map_none, Option.none_or,
          Option.some_inj] at hevent
        exact hevent ▸ hcleared
      · simp only [Option.map_some, Option.filter_some, hcleared, ne_eq, not_false_eq_true,
          decide_true, if_true, Option.some_or, Option.some_inj] at hevent
        rw [← hevent]
        rfl
  case unchanged =>
    rintro records record alarmId hrecords hmem hid rfl hsame
    have hnone := hmaybe records hrecords
    rw [due_of_mem (hwell records hrecords) hmem hid, if_pos hsame] at hnone
    exact hnone.elim id id
  case cleared =>
    intro records event hrecords hkey hevent
    have hone := hmaybe records hrecords
    rw [due_of_not_mem hkey, hevent] at hone
    constructor
    · intro hcleared
      simpa [Option.filter, hcleared] using hone
    · intro hactive
      refine ⟨by simpa [Option.filter, hactive] using hone, fun hsucceeds => ?_⟩
      have hexact := hdue records hrecords hsucceeds
      rw [due_of_not_mem hkey, hevent] at hexact
      simpa [Option.filter, hactive] using hexact
  case reappears =>
    rintro records record alarmId event hrecords hmem hid rfl hevent hcleared hactive hsucceeds
    rw [hdue records hrecords hsucceeds, due_of_mem (hwell records hrecords) hmem hid, if_neg]
    · rfl
    · rw [hevent, Option.map_some, Option.some_inj]
      intro heq
      rw [← heq, hcleared] at hactive
      exact absurd hactive (by decide)
  case unparsed =>
    intro hnone
    rw [step_unparsed hnone]

/-! ## A raw payload that changes -/

def levelRecord (rawPayload : String) : HttpFeedAlarmRecord where
  correlationId := some "LIC-101|HI"
  sourceEventId := none
  eventName := some "Level high"
  state := some "active"
  severity := some "high"
  priority := 2
  sourceTimestamp := some "2026-01-01T00:00:00Z"
  tagName := some "LIC-101"
  description := none
  message := none
  acknowledged := false
  asset := none
  area := none
  site := none
  rawPayload := some rawPayload

def pollOf (records : List HttpFeedAlarmRecord) : Poll where
  records := some records
  now := fun _ => "2026-01-01T00:00:00Z"
  enumeration := ⟨fun entries => entries, fun entries => List.Perm.refl entries⟩
  fault := none

theorem polls_follow_feed_level :
    FollowsFeed (fun id => id) (fun _ => none) (pollOf []) "LIC-101|HI"
      (Succeeds (fun id => id) (fun _ => none)
        (Machine.stateAfter (step (fun id => id) (fun _ => none)) Dict.empty
          [pollOf [levelRecord "a"]]) (pollOf []))
      (Machine.outputs (step (fun id => id) (fun _ => none)) Dict.empty
        [pollOf [levelRecord "a"]])
      (step (fun id => id) (fun _ => none)
        (Machine.stateAfter (step (fun id => id) (fun _ => none)) Dict.empty
          [pollOf [levelRecord "a"]]) (pollOf [])).2 := by
  refine polls_follow_feed (fun id => id) (fun _ => none) [pollOf [levelRecord "a"]] (pollOf [])
    ?_ "LIC-101|HI"
  intro p hp records hrecords
  rcases List.mem_cons.mp hp with rfl | hp
  · obtain rfl := Option.some.inj hrecords
    decide
  · obtain rfl := List.mem_singleton.mp hp
    obtain rfl := Option.some.inj hrecords
    exact List.nodup_nil

/-- A second poll whose record has another raw payload: nothing is published, and the last event
still carries the first one. -/
theorem raw_payload_kept_back :
    (publishDelta (fun id => id) (fun _ => none)
      (Machine.stateAfter (step (fun id => id) (fun _ => none)) Dict.empty
        [pollOf [levelRecord "a"]]) (pollOf [levelRecord "b"]) [levelRecord "b"]).failed = false ∧
    ∃ event, lastEvent (fun id => id) "LIC-101|HI"
        (Machine.outputs (step (fun id => id) (fun _ => none)) Dict.empty
          [pollOf [levelRecord "a"], pollOf [levelRecord "b"]]) = some event ∧
      event.rawPayload ≠ parseRawPayload (fun _ => none) (levelRecord "b").rawPayload := by
  refine ⟨by decide, ⟨toSnapshot "" (levelRecord "a") "LIC-101|HI", .text "a"⟩, rfl, ?_⟩
  intro h
  exact absurd (Json.text.inj h) (by decide)

end AlarmIngestionService

end OpenBridge.Alarms
