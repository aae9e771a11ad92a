import Mathlib.Data.List.Sort
import OpenBridge.AlarmConsole.ActiveAlarm

/-!
# Alarm console: the alarm store

The server tells of every change over the hub and lists its active alarms page by page.  The
console collects what the hub delivers and flushes it in batches; a hydration reads the pages and
at its end deletes the alarms that no page listed.
-/

namespace OpenBridge.AlarmConsole

open OpenBridge.Foundation

/-! ## Which alarms are shown -/

/-- `HTTP_FEED_SERVER_ID`: the server that counts when no list of servers has been read. -/
def HTTP_FEED_SERVER_ID : String := "f0af9a6d-85f6-4c9f-a8ad-6de277d1d110"

/-- `serverId.trim().toLowerCase()`. -/
def serverKey (serverId : String) : String := toLowerInvariant (trimWhere isTrimmed serverId)

def isDisplayableOpcAlarm (a : AlarmDetails) : Bool :=
  trimWhere isTrimmed a.sourceName ≠ "" && trimWhere isTrimmed (a.conditionName.getD "") ≠ ""

def onConnectedServer (a : AlarmDetails) (connected : List String) : Bool :=
  if connected.length > 0 then connected.contains (serverKey a.serverId)
  else serverKey a.serverId = HTTP_FEED_SERVER_ID

def alarmMatchesConnectedOpcServer (a : AlarmDetails) (connected : List String) : Bool :=
  isDisplayableOpcAlarm a && a.conditionActive && onConnectedServer a connected

/-! ## Deltas of the hub -/

inductive HubDelta where
  | new (raw : RawAlarm)
  | update (raw : RawAlarm)
  | clear (alarmId : String)

namespace HubDelta

def id : HubDelta → String
  | new raw | update raw => raw.id
  | clear alarmId => alarmId

def result : HubDelta → Option RawAlarm
  | new raw | update raw => if (mapActiveAlarmDto raw).conditionActive then some raw else none
  | clear _ => none

end HubDelta

def applyPayload (connected : List String) (alarms : Dict String ActiveAlarm) (isUpdate : Bool)
    (raw : RawAlarm) : Dict String ActiveAlarm :=
  let incoming := mapHubAlarmPayload raw (alarms.get? raw.id)
  if !alarmMatchesConnectedOpcServer incoming.toAlarmDetails connected then alarms.erase raw.id
  else if isUpdate && !incoming.conditionActive then alarms.erase raw.id
  else
    match alarms.get? incoming.id with
    | some existing =>
        let next := upsertAlarm existing incoming
        if alarmsEqual existing next then alarms else alarms.set incoming.id next
    | none => alarms.set incoming.id incoming

def applyDelta (connected : List String) (alarms : Dict String ActiveAlarm) :
    HubDelta → Dict String ActiveAlarm
  | .clear alarmId => alarms.erase alarmId
  | .new raw => applyPayload connected alarms false raw
  | .update raw => applyPayload connected alarms true raw

/-! ## The hydration -/

/-- Where a hydration stands: a page is to be read, a page has been read and its answer is under
way, or all pages have been applied. -/
inductive Hydration where
  | never
  | requesting (serverId : Option String) (pageNumber received : ℕ) (fetched : List String)
  | reading (serverId : Option String) (pageNumber received : ℕ) (fetched : List String)
      (page : List RawAlarm) (totalCount : ℕ)
  | reconciling (fetched : List String)
  | finished

def Hydration.isFinished : Hydration → Bool
  | .finished => true
  | _ => false

/-- The console and the server: its active alarms, the deltas under way and those not flushed, and
the store. -/
structure Console where
  server : Dict String RawAlarm
  inFlight : List HubDelta
  pendingHubDeltas : List HubDelta
  alarms : Dict String ActiveAlarm
  connectedOpcServerIds : List String
  hydration : Hydration

inductive Event where
  /-- The server changes, and tells of it. -/
  | told (d : HubDelta)
  | deliver
  | flush
  /-- A hydration starts; none when the servers could not be read. -/
  | hydrate (servers : Option (List String))
  | readPage
  | applyPage
  | reconcile

def PAGE_SIZE : ℕ := 500

namespace Console

def start (server : Dict String RawAlarm) : Console := ⟨server, [], [], .empty, [], .never⟩

def outstanding (s : Console) : List HubDelta := s.pendingHubDeltas ++ s.inFlight

def listed (server : Dict String RawAlarm) (serverId : Option String) : List RawAlarm :=
  let asked := server.values.filter fun raw =>
    match serverId with
    | some serverId => serverKey (raw.serverId.getD "") = serverKey serverId
    | none => true
  asked.insertionSort fun a b => (hubAlarm b).eventTimeEpochMs ≤ (hubAlarm a).eventTimeEpochMs

/-- `syncConnectedOpcServers`, with the server that is configured for when there is none: the
connected servers, and the server whose alarms are asked for. -/
def syncConnectedOpcServers (fallback : Option String) (connected : List String) :
    Option (List String) → List String × Option String
  | some servers => (servers.map serverKey, servers.head?.or fallback)
  | none =>
      match fallback with
      | some serverId => ([serverKey serverId], some serverId)
      | none => (connected, none)

def connectedAtStart (fallback : Option String) (connected : List String)
    (servers : Option (List String)) : List String :=
  let synced := syncConnectedOpcServers fallback connected servers
  match synced.2 with
  | some serverId => if synced.1.length = 0 then [serverKey serverId] else synced.1
  | none => synced.1

/-- The server of an alarm that is shown without a list of servers. -/
def connectServer (ids : List String) (a : ActiveAlarm) : List String :=
  if alarmMatchesConnectedOpcServer a.toAlarmDetails [] then ids.insert (serverKey a.serverId)
  else ids

def connectedAfterPage (connected : List String) (page : List ActiveAlarm) : List String :=
  if connected.length = 0 then page.foldl connectServer connected else connected

def applyListed (connected : List String) (s : Dict String ActiveAlarm × List String)
    (alarm : ActiveAlarm) : Dict String ActiveAlarm × List String :=
  if alarmMatchesConnectedOpcServer alarm.toAlarmDetails connected then
    (match s.1.get? alarm.id with
      | some prev =>
          let next := upsertAlarm prev alarm
          if next = prev then s.1 else s.1.set alarm.id next
      | none => s.1.set alarm.id alarm,
      alarm.id :: s.2)
  else s

variable (fallback : Option String)

/-- One event. -/
def step (s : Console) : Event → Console × List Unit
  | .told d =>
      ({ s with
        server := match d.result with
          | some raw => s.server.set d.id raw
          | none => s.server.erase d.id
        inFlight := s.inFlight ++ [d] }, [])
  | .deliver =>
      match s.inFlight with
      | d :: rest =>
          ({ s with inFlight := rest, pendingHubDeltas := s.pendingHubDeltas ++ [d] }, [])
      | [] => (s, [])
  | .flush =>
      ({ s with
        alarms := s.pendingHubDeltas.foldl (applyDelta s.connectedOpcServerIds) s.alarms
        pendingHubDeltas := [] }, [])
  | .hydrate servers =>
      match s.hydration with
      | .never | .finished =>
          ({ s with
            connectedOpcServerIds := connectedAtStart fallback s.connectedOpcServerIds servers
            hydration := .requesting
              (syncConnectedOpcServers fallback s.connectedOpcServerIds servers).2 1 0 [] }, [])
      | _ => (s, [])
  | .readPage =>
      match s.hydration with
      | .requesting serverId pageNumber received fetched =>
          let alarms := listed s.server serverId
          ({ s with
            hydration := .reading serverId pageNumber received fetched
              ((alarms.drop ((pageNumber - 1) * PAGE_SIZE)).take PAGE_SIZE) alarms.length }, [])
      | _ => (s, [])
  | .applyPage =>
      match s.hydration with
      | .reading serverId pageNumber received fetched page totalCount =>
          let pageAlarms := page.map mapActiveAlarmDto
          let connected := connectedAfterPage s.connectedOpcServerIds pageAlarms
          let applied := pageAlarms.foldl (applyListed connected) (s.alarms, fetched)
          let received := received + page.length
          ({ s with
            alarms := applied.1
            connectedOpcServerIds := connected
            hydration :=
              if page.length < PAGE_SIZE ∨ totalCount ≤ received then .reconciling applied.2
              else .requesting serverId (pageNumber + 1) received applied.2 }, [])
      | _ => (s, [])
  | .reconcile =>
      match s.hydration with
      | .reconciling fetched =>
          ({ s with
            alarms := s.alarms.filter fun e =>
              !alarmMatchesConnectedOpcServer e.2.toAlarmDetails s.connectedOpcServerIds ||
                fetched.contains e.1
            hydration := .finished }, [])
      | _ => (s, [])

end Console

end OpenBridge.AlarmConsole
