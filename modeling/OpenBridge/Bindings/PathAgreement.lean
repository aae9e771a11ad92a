import OpenBridge.Bindings.Asset
import OpenBridge.Foundation.Dict

/-!
# Bindings: the path resolver

`ResolveAsync` asks asset-model for one path and `ResolveManyAsync` for many in one call; a path
without an asset gets a binding derived from its text.
-/

namespace OpenBridge.Bindings

open OpenBridge.Foundation

/-! ## Bindings -/

structure MqttConnectionInfo where
  host : String
  port : ℤ
  protocol : String
  username : Option String
  wsPath : String

structure LiveBinding where
  mqtt : MqttConnectionInfo
  sparkplugTopic : String
  sparkplugGroup : String
  sparkplugEdgeNode : String
  sparkplugDevice : String
  sparkplugMetric : Option String
  redisSnapshotKey : Option String
  snapshotEndpoint : String

structure HistoryBinding where
  ioTDbPath : String
  trendEndpoint : String
  rawEndpoint : String

structure AlarmBinding where
  alarmSource : String
  signalRHub : String
  subscribeMethod : String
  kafkaTopic : String
  alarmApiEndpoint : String

structure BindingResponse where
  contextualPath : String
  resolved : Bool
  provenance : String
  error : Option String
  live : Option LiveBinding
  history : Option HistoryBinding
  alarm : Option AlarmBinding

/-- What the service is configured with.  Reading the port may fail. -/
structure Configuration where
  mqttHost : Option String
  mqttWebSocketPort : Except String (Option ℤ)
  mqttProtocol : Option String
  mqttUsername : Option String
  publicMqttWsPath : Option String
  publicHistBase : Option String
  publicSignalRHub : Option String
  publicAlarmsApiBase : Option String
  /-- `Uri.EscapeDataString`. -/
  escapeDataString : String → String

namespace PathResolver

variable (config : Configuration)

def histPublicBase : String := config.publicHistBase.getD "/api/hist"

def buildLiveBinding (group edgeNode device : String) (metric redisKey : Option String)
    (topic : String) : Except String LiveBinding := do
  let port ← config.mqttWebSocketPort
  return {
    mqtt := {
      host := config.mqttHost.getD "emqx"
      port := port.getD 8083
      protocol := config.mqttProtocol.getD "ws"
      username := config.mqttUsername
      wsPath := config.publicMqttWsPath.getD "/mqtt-ws" }
    sparkplugTopic := topic
    sparkplugGroup := group
    sparkplugEdgeNode := edgeNode
    sparkplugDevice := device
    sparkplugMetric := metric
    redisSnapshotKey := redisKey
    snapshotEndpoint := histPublicBase config ++ "/snapshot?assets=" ++ device }

def buildHistoryBinding (ioTDbPath : String) : HistoryBinding where
  ioTDbPath := ioTDbPath
  trendEndpoint :=
    histPublicBase config ++ "/trend?series=" ++ config.escapeDataString ioTDbPath
  rawEndpoint := histPublicBase config ++ "/raw?series=" ++ config.escapeDataString ioTDbPath

def buildAlarmBinding (alarmSource : String) : AlarmBinding where
  alarmSource := alarmSource
  signalRHub := config.publicSignalRHub.getD "/hubs/alarms"
  subscribeMethod := "SubscribeToArea"
  kafkaTopic := "traverse.alarm.live.alarms"
  alarmApiEndpoint := config.publicAlarmsApiBase.getD "/api/v1/alarms" ++
    "/active?sourceNameContains=" ++ config.escapeDataString alarmSource

structure RoleFlags where
  live : Bool
  history : Bool
  alarm : Bool

def roleFlags (roles : List String) : RoleFlags :=
  let contains (role : String) : Bool :=
    roles.any fun r => toUpperInvariant r = toUpperInvariant role
  let all := contains "all"
  ⟨all || contains "live", all || contains "history", all || contains "alarm"⟩

def when {α : Type} (asked : Bool) (build : Except String α) : Except String (Option α) :=
  if asked then build.map some else .ok none

def buildBindingFromAsset (asset : AssetInfo) (flags : RoleFlags) :
    Except String BindingResponse := do
  let live ← when flags.live <| buildLiveBinding config asset.sparkplugGroup
    asset.sparkplugEdgeNode asset.sparkplugDevice asset.sparkplugMetric asset.redisSnapshotKey
    asset.sparkplugTopic
  let history ← when flags.history (.ok (buildHistoryBinding config asset.ioTDbPath))
  let alarm ← when flags.alarm (.ok (buildAlarmBinding config asset.alarmSource))
  return {
    contextualPath := asset.contextualPath
    resolved := true
    provenance := "asset-model"
    error := none
    live := live
    history := history
    alarm := alarm }

/-- The binding derived from the text of a path. -/
def buildBindingFromPath (contextualPath : String) (flags : RoleFlags) :
    Except String BindingResponse :=
  let parts := split '/' contextualPath
  if parts.length < 2 then .ok {
    contextualPath := contextualPath
    resolved := false
    provenance := "asset-model"
    error := some "Invalid path format. Expected: site/[area/]unit/device[.measurement]"
    live := none
    history := none
    alarm := none }
  else do
    let site := parts.headD ""
    let edgeNode := site ++ "_edge1"
    let lastPart := fromEnd parts 1
    let dotIndex := indexOf '.' lastPart
    let device := match dotIndex with
      | some dot => upTo dot lastPart
      | none => lastPart
    let metric := dotIndex.map fun dot => after (dot + 1) lastPart
    let deviceId := if 4 ≤ parts.length then fromEnd parts 2 ++ "_" ++ device else device
    let sparkplugTopic := "spBv1.0/" ++ site ++ "/DDATA/" ++ edgeNode ++ "/" ++ deviceId
    let redisKey := metric.map fun metric =>
      "snapshot:metric:" ++ site ++ ":" ++ edgeNode ++ ":" ++ deviceId ++ ":" ++ metric
    let iotdbPath := "root." ++ replace ' ' '_' (replace '/' '.' contextualPath)
    let alarmSource :=
      site ++ ":" ++ (if 3 ≤ parts.length then fromEnd parts 2 else "default") ++ ":" ++ device
    let live ← when flags.live
      (buildLiveBinding config site edgeNode deviceId metric redisKey sparkplugTopic)
    let history ← when flags.history (.ok (buildHistoryBinding config iotdbPath))
    let alarm ← when flags.alarm (.ok (buildAlarmBinding config alarmSource))
    return {
      contextualPath := contextualPath
      resolved := true
      provenance := "fallback"
      error := none
      live := live
      history := history
      alarm := alarm }

/-- `catch (Exception ex)`. -/
def caught (contextualPath : String) : Except String BindingResponse → BindingResponse
  | .ok response => response
  | .error message => {
      contextualPath := contextualPath
      resolved := false
      provenance := "asset-model"
      error := some message
      live := none
      history := none
      alarm := none }

/-- `ResolveAsync`: what the look-up of the path finds, else what is derived from its text. -/
def resolveAsync (byPath : String → Option AssetInfo) (contextualPath : String)
    (roles : List String) : BindingResponse :=
  caught contextualPath <|
    match byPath contextualPath with
    | some asset => buildBindingFromAsset config asset (roleFlags roles)
    | none => buildBindingFromPath config contextualPath (roleFlags roles)

/-- `found.TryAdd`, of an asset that has a path. -/
def tryAdd (found : Dict String AssetInfo) (asset : AssetInfo) : Dict String AssetInfo :=
  if asset.contextualPath = "" then found
  else if found.contains asset.contextualPath then found
  else found.set asset.contextualPath asset

/-- `TryResolveManyFromAssetModel`: nothing is found when the call fails. -/
def tryResolveManyFromAssetModel (byPaths : List String → Option (List AssetInfo))
    (paths : List String) : Dict String AssetInfo :=
  match byPaths paths with
  | some list => list.foldl tryAdd .empty
  | none => .empty

def resolveManyAsync (byPaths : List String → Option (List AssetInfo))
    (requests : List (String × List String)) : List BindingResponse :=
  if requests.length = 0 then []
  else
    let paths := distinct (requests.map Prod.fst)
    let assets := tryResolveManyFromAssetModel byPaths paths
    requests.map fun request =>
      caught request.1 <|
        match assets.get? request.1 with
        | some asset => buildBindingFromAsset config asset (roleFlags request.2)
        | none => buildBindingFromPath config request.1 (roleFlags request.2)

end PathResolver

/-!
# Bindings: the ways to resolve a path agree

Many paths are resolved as each would be alone, and the binding derived from the text of a path is
the one of an asset of that path that overrides no transport.
-/

open PathResolver

/-! ## One path and many -/

theorem get?_foldl_tryAdd (assets : List AssetInfo) (d : Dict String AssetInfo) {path : String}
    (hpath : path ≠ "") :
    (assets.foldl tryAdd d).get? path =
      (d.get? path).or (assets.find? fun a => a.contextualPath = path) := by
  induction assets generalizing d with
  | nil => simp
  | cons a assets ih =>
    rw [List.foldl_cons, ih]
    unfold tryAdd
    by_cases heq : a.contextualPath = path
    · subst heq
      rw [if_neg hpath, List.find?_cons_of_pos (by simp)]
      cases hget : d.get? a.contextualPath with
      | none => simp [Dict.contains, hget]
      | some b => simp [Dict.contains, hget]
    · rw [List.find?_cons_of_neg (by simpa using heq)]
      congr 1
      split
      · rfl
      · split
        · rfl
        · exact Dict.get?_set_of_ne _ _ (Ne.symm heq)

theorem get?_foldl_tryAdd_empty (assets : List AssetInfo) (d : Dict String AssetInfo) :
    (assets.foldl tryAdd d).get? "" = d.get? "" := by
  induction assets generalizing d with
  | nil => rfl
  | cons a assets ih =>
    rw [List.foldl_cons, ih]
    unfold tryAdd
    split
    · rfl
    · rename_i hne
      split
      · rfl
      · exact Dict.get?_set_of_ne _ _ (Ne.symm hne)

theorem get?_tryResolveMany (m : AssetModel) {paths : List String} (hdistinct : paths.Nodup)
    (hlength : paths.length ≤ 2000) {path : String} (hpath : path ∈ paths) :
    (tryResolveManyFromAssetModel m.byPaths paths).get? path = m.byPath path := by
  obtain ⟨rows, hrows, hunique, hmem⟩ := m.byPaths_of_distinct hdistinct hlength
  unfold tryResolveManyFromAssetModel
  rw [hrows]
  dsimp only
  by_cases hempty : path = ""
  · subst hempty
    rw [get?_foldl_tryAdd_empty, Dict.get?_empty, eq_comm, Option.eq_none_iff_forall_ne_some]
    intro info hinfo
    obtain ⟨a, ha, hblank, -⟩ := m.byPath_eq_some_iff.mp hinfo
    have := m.catalogue.blank a ha
    rw [hblank] at this
    exact absurd this (by decide)
  · rw [get?_foldl_tryAdd _ _ hempty, Dict.get?_empty, Option.none_or, List.find?_map]
    ext info
    rw [m.byPath_eq_some_iff, Option.map_eq_some_iff]
    constructor
    · rintro ⟨a, hfind, rfl⟩
      have ha := (hmem a).mp (List.mem_of_find?_eq_some hfind)
      have hpath := List.find?_some hfind
      exact ⟨a, ha.1, of_decide_eq_true hpath, rfl⟩
    · rintro ⟨a, ha, heq, rfl⟩
      have harow : a ∈ rows := (hmem a).mpr ⟨ha, heq ▸ hpath⟩
      cases hfind : rows.find? ((fun i : AssetInfo => decide (i.contextualPath = path)) ∘
          AssetInfo.ofAsset) with
      | none => exact absurd (decide_eq_true heq) (List.find?_eq_none.mp hfind a harow)
      | some b =>
        have hb := (hmem b).mp (List.mem_of_find?_eq_some hfind)
        have hbpath := List.find?_some hfind
        have hab := m.eq_of_path hb.1 ha ((of_decide_eq_true hbpath).trans heq.symm)
        exact ⟨b, rfl, congrArg _ hab⟩

theorem resolveManyAsync_eq (config : Configuration) (m : AssetModel)
    (requests : List (String × List String))
    (h : (distinct (requests.map Prod.fst)).length ≤ 2000) :
    resolveManyAsync config m.byPaths requests =
      requests.map fun r => resolveAsync config m.byPath r.1 r.2 := by
  unfold resolveManyAsync
  split
  · rename_i hnil
    rw [List.eq_nil_of_length_eq_zero hnil]
    rfl
  · refine List.map_congr_left fun r hr => ?_
    have hmem : r.1 ∈ distinct (requests.map Prod.fst) :=
      mem_distinct.mpr (List.mem_map_of_mem hr)
    unfold resolveAsync
    rw [get?_tryResolveMany m (nodup_distinct _) h hmem]

/-! ## The path and the asset -/

def BindingResponse.transports (r : BindingResponse) :
    Option LiveBinding × Option HistoryBinding × Option AlarmBinding :=
  (r.live, r.history, r.alarm)

theorem buildBindingFromPath_transports (config : Configuration) {a : Asset} (h : a.NoOverrides)
    (hparts : 2 ≤ (split '/' a.contextualPath).length) (flags : RoleFlags) :
    (buildBindingFromPath config a.contextualPath flags).map BindingResponse.transports =
      (buildBindingFromAsset config (.ofAsset a) flags).map BindingResponse.transports := by
  obtain ⟨hiotdb, hgroup, hedge, hdevice, hmetric⟩ := h
  -- the device is written in two ways: up to the first dot, and the first part
  have hhead := head_split '.' (fromEnd (split '/' a.contextualPath) 1)
  have hsite : a.sparkplugGroup = (split '/' a.contextualPath).headD "" := by
    unfold Asset.sparkplugGroup
    rw [hgroup, Option.getD_none]
  have hnode : a.sparkplugEdgeNode = (split '/' a.contextualPath).headD "" ++ "_edge1" := by
    unfold Asset.sparkplugEdgeNode
    rw [hedge, Option.getD_none]
  unfold buildBindingFromPath buildBindingFromAsset AssetInfo.ofAsset
  rw [if_neg (by omega)]
  unfold Asset.redisSnapshotKey Asset.sparkplugTopic Asset.alarmSource Asset.sparkplugDevice
    Asset.sparkplugMetric Asset.ioTDbPath
  rw [hsite, hnode, hiotdb, hdevice, hmetric]
  dsimp only [Option.getD_none, Option.none_or]
  rw [hhead]
  -- what is built is the same; only the provenance differs
  cases when flags.live (buildLiveBinding config ((split '/' a.contextualPath).headD "")
    _ _ _ _ _) with
  | error message => rfl
  | ok live =>
    unfold when
    cases flags.history <;> cases flags.alarm <;> rfl

/-- Many paths, no more than asset-model takes, are resolved as each alone, and a path of two
segments without its asset as with one that overrides nothing. -/
theorem resolutions_agree (config : Configuration) (m : AssetModel)
    (requests : List (String × List String))
    (hlength : (distinct (requests.map Prod.fst)).length ≤ 2000) {a : Asset} (ha : a.NoOverrides)
    (hparts : 2 ≤ (split '/' a.contextualPath).length) (flags : RoleFlags) :
    (resolveManyAsync config m.byPaths requests =
      requests.map fun r => resolveAsync config m.byPath r.1 r.2) ∧
    (buildBindingFromPath config a.contextualPath flags).map BindingResponse.transports =
      (buildBindingFromAsset config (.ofAsset a) flags).map BindingResponse.transports :=
  ⟨resolveManyAsync_eq config m requests hlength,
    buildBindingFromPath_transports config ha hparts flags⟩

def unconfigured : Configuration where
  mqttHost := none
  mqttWebSocketPort := .ok none
  mqttProtocol := none
  mqttUsername := none
  publicMqttWsPath := none
  publicHistBase := none
  publicSignalRHub := none
  publicAlarmsApiBase := none
  escapeDataString := id

def pump : Asset := ⟨"houston/crude1/pump101.press", none, none, none, none, none⟩

def onePump : AssetModel where
  catalogue := ⟨[pump], by decide, by decide⟩
  rows p := [pump].filter p
  rows_perm _ := .refl _

theorem pump_agrees :
    (resolveManyAsync unconfigured onePump.byPaths
        [("houston/crude1/pump101.press", ["live"]), ("houston/pump102", ["all"])] =
      [("houston/crude1/pump101.press", ["live"]), ("houston/pump102", ["all"])].map
        fun r => resolveAsync unconfigured onePump.byPath r.1 r.2) ∧
    (buildBindingFromPath unconfigured pump.contextualPath ⟨true, true, true⟩).map
        BindingResponse.transports =
      (buildBindingFromAsset unconfigured (.ofAsset pump) ⟨true, true, true⟩).map
        BindingResponse.transports :=
  resolutions_agree unconfigured onePump _ (by decide) ⟨rfl, rfl, rfl, rfl, rfl⟩ (by decide) _

end OpenBridge.Bindings
