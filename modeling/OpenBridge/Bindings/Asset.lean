import Mathlib.Data.List.Nodup
import OpenBridge.Foundation.FirstsBy
import OpenBridge.Foundation.Text

/-!
# Bindings: the asset and what asset-model answers
-/

namespace OpenBridge.Bindings

open OpenBridge.Foundation

/-! ## Texts -/

/-- `text.Split(separator)`. -/
def split (separator : Char) (text : String) : List String :=
  (text.toList.splitOn separator).map String.ofList

/-- `parts[^n]`. -/
def fromEnd (parts : List String) (n : ℕ) : String := parts.getD (parts.length - n) ""

/-- `text.IndexOf(c)`; none is -1. -/
def indexOf (c : Char) (text : String) : Option ℕ := text.toList.findIdx? (· == c)

/-- `text[..n]`. -/
def upTo (n : ℕ) (text : String) : String := String.ofList (text.toList.take n)

/-- `text[n..]`. -/
def after (n : ℕ) (text : String) : String := String.ofList (text.toList.drop n)

/-- `text.Replace(a, b)`. -/
def replace (a b : Char) (text : String) : String :=
  String.ofList (text.toList.map fun c => if c = a then b else c)

/-- `Distinct(StringComparer.Ordinal)`. -/
def distinct (texts : List String) : List String := firstsBy id texts

theorem mem_distinct {texts : List String} {t : String} : t ∈ distinct texts ↔ t ∈ texts := by
  have h : t ∈ (firstsFrom id [] texts).map id ↔ t ∈ texts.map id ∧ t ∉ [] := mem_map_firstsFrom
  rw [List.map_id, List.map_id] at h
  exact h.trans (and_iff_left List.not_mem_nil)

theorem nodup_distinct (texts : List String) : (distinct texts).Nodup := by
  have h : ((firstsBy id texts).map id).Nodup := nodup_map_firstsBy texts
  rwa [List.map_id] at h

theorem distinct_of_nodup {texts : List String} (h : texts.Nodup) : distinct texts = texts :=
  firstsFrom_eq_self (fun _ _ => List.not_mem_nil) (by rwa [List.map_id])

theorem head_splitOn (separator : Char) (cs : List Char) :
    (cs.splitOn separator).head? = some (cs.takeWhile (· != separator)) := by
  unfold List.splitOn
  induction cs with
  | nil => rfl
  | cons c cs ih =>
    rw [List.splitOnP_cons_eq_if_modifyHead]
    split
    · rename_i h
      rw [List.takeWhile_cons_of_neg (by simpa using h)]
      rfl
    · rename_i h
      rw [List.takeWhile_cons_of_pos (by simpa using h), List.head?_modifyHead, ih]
      rfl

theorem takeWhile_of_findIdx? (c : Char) (cs : List Char) :
    cs.takeWhile (· != c) = ((cs.findIdx? (· == c)).map fun n => cs.take n).getD cs := by
  induction cs with
  | nil => rfl
  | cons d cs ih =>
    by_cases h : d = c
    · subst h
      simp [List.findIdx?_cons]
    · rw [List.takeWhile_cons_of_pos (by simpa using h), ih, List.findIdx?_cons,
        if_neg (by simpa using h)]
      cases cs.findIdx? (· == c) with
      | none => rfl
      | some n => rfl

theorem head_split (separator : Char) (text : String) :
    (split separator text).headD "" =
      match indexOf separator text with
      | some n => upTo n text
      | none => text := by
  have hhead := head_splitOn separator text.toList
  unfold split indexOf upTo
  rw [List.headD_eq_head?_getD, List.head?_map, hhead, takeWhile_of_findIdx?]
  cases text.toList.findIdx? (· == separator) with
  | none => exact String.ofList_toList
  | some n => rfl

/-! ## Assets -/

/-- A row of the assets table, as far as its transports are derived from it. -/
structure Asset where
  contextualPath : String
  ioTDbPathOverride : Option String
  sparkplugGroupOverride : Option String
  sparkplugEdgeNodeOverride : Option String
  sparkplugDeviceOverride : Option String
  sparkplugMetricOverride : Option String

namespace Asset

variable (a : Asset)

def ioTDbPath : String :=
  a.ioTDbPathOverride.getD ("root." ++ replace ' ' '_' (replace '/' '.' a.contextualPath))

def sparkplugGroup : String := a.sparkplugGroupOverride.getD ((split '/' a.contextualPath).headD "")

def sparkplugEdgeNode : String :=
  a.sparkplugEdgeNodeOverride.getD ((split '/' a.contextualPath).headD "" ++ "_edge1")

def sparkplugDevice : String :=
  a.sparkplugDeviceOverride.getD <|
    let parts := split '/' a.contextualPath
    if 4 ≤ parts.length then
      fromEnd parts 2 ++ "_" ++ (split '.' (fromEnd parts 1)).headD ""
    else (split '.' (fromEnd parts 1)).headD ""

def sparkplugMetric : Option String :=
  a.sparkplugMetricOverride.or <|
    let lastPart := fromEnd (split '/' a.contextualPath) 1
    (indexOf '.' lastPart).map fun dotIndex => after (dotIndex + 1) lastPart

def sparkplugTopic : String :=
  "spBv1.0/" ++ a.sparkplugGroup ++ "/DDATA/" ++ a.sparkplugEdgeNode ++ "/" ++ a.sparkplugDevice

def alarmSource : String :=
  let parts := split '/' a.contextualPath
  parts.headD "" ++ ":" ++ (if 3 ≤ parts.length then fromEnd parts 2 else "default") ++ ":" ++
    (split '.' (fromEnd parts 1)).headD ""

def redisSnapshotKey : Option String :=
  a.sparkplugMetric.map fun metric =>
    "snapshot:metric:" ++ a.sparkplugGroup ++ ":" ++ a.sparkplugEdgeNode ++ ":" ++
      a.sparkplugDevice ++ ":" ++ metric

def NoOverrides : Prop :=
  a.ioTDbPathOverride = none ∧ a.sparkplugGroupOverride = none ∧
    a.sparkplugEdgeNodeOverride = none ∧ a.sparkplugDeviceOverride = none ∧
    a.sparkplugMetricOverride = none

end Asset

structure AssetInfo where
  contextualPath : String
  ioTDbPath : String
  sparkplugGroup : String
  sparkplugEdgeNode : String
  sparkplugDevice : String
  sparkplugMetric : Option String
  sparkplugTopic : String
  alarmSource : String
  redisSnapshotKey : Option String

/-- `AssetDto.From`. -/
def AssetInfo.ofAsset (a : Asset) : AssetInfo where
  contextualPath := a.contextualPath
  ioTDbPath := a.ioTDbPath
  sparkplugGroup := a.sparkplugGroup
  sparkplugEdgeNode := a.sparkplugEdgeNode
  sparkplugDevice := a.sparkplugDevice
  sparkplugMetric := a.sparkplugMetric
  sparkplugTopic := a.sparkplugTopic
  alarmSource := a.alarmSource
  redisSnapshotKey := a.redisSnapshotKey

/-! ## The catalogue -/

/-- `string.IsNullOrWhiteSpace`. -/
def isBlank (text : String) : Bool := text.toList.all isWhiteSpace

/-- The assets that are not deleted: the grammar of every write refuses a blank path, and the index
of the table one that another asset has. -/
structure Catalogue where
  assets : List Asset
  blank : ∀ a ∈ assets, isBlank a.contextualPath = false
  unique : (assets.map Asset.contextualPath).Nodup

/-- `POST /assets`, after the grammar. -/
def Catalogue.create (c : Catalogue) (a : Asset) : Option Catalogue :=
  if hblank : isBlank a.contextualPath then none
  else if htaken : a.contextualPath ∈ c.assets.map Asset.contextualPath then none
  else some {
    assets := a :: c.assets
    blank := List.forall_mem_cons.mpr ⟨eq_false_of_ne_true hblank, c.blank⟩
    unique := List.nodup_cons.mpr ⟨htaken, c.unique⟩ }

/-- asset-model over a catalogue: the database gives the rows of a query in an order of its own. -/
structure AssetModel where
  catalogue : Catalogue
  rows : (Asset → Bool) → List Asset
  rows_perm : ∀ p, (rows p).Perm (catalogue.assets.filter p)

namespace AssetModel

variable (m : AssetModel)

/-- `GET /assets/by-path`. -/
def byPath (path : String) : Option AssetInfo :=
  (m.rows fun a => a.contextualPath = path).head?.map AssetInfo.ofAsset

/-- `POST /assets/by-paths`; none is the refusal of too many paths. -/
def byPaths (request : List String) : Option (List AssetInfo) :=
  let paths := distinct (request.filter fun p => !isBlank p)
  if paths.length = 0 then some []
  else if 2000 < paths.length then none
  else some ((m.rows fun a => a.contextualPath ∈ paths).map AssetInfo.ofAsset)

theorem mem_rows {p : Asset → Bool} {a : Asset} :
    a ∈ m.rows p ↔ a ∈ m.catalogue.assets ∧ p a = true := by
  rw [(m.rows_perm p).mem_iff, List.mem_filter]

theorem eq_of_path {a b : Asset} (ha : a ∈ m.catalogue.assets) (hb : b ∈ m.catalogue.assets)
    (h : a.contextualPath = b.contextualPath) : a = b :=
  List.inj_on_of_nodup_map m.catalogue.unique ha hb h

theorem byPath_eq_some_iff {path : String} {info : AssetInfo} :
    m.byPath path = some info ↔
      ∃ a ∈ m.catalogue.assets, a.contextualPath = path ∧ info = AssetInfo.ofAsset a := by
  unfold byPath
  constructor
  · intro h
    obtain ⟨a, hhead, rfl⟩ := Option.map_eq_some_iff.mp h
    have ha := (m.mem_rows).mp (List.mem_of_mem_head? hhead)
    exact ⟨a, ha.1, of_decide_eq_true ha.2, rfl⟩
  · rintro ⟨a, ha, rfl, rfl⟩
    cases hrows : m.rows fun b => b.contextualPath = a.contextualPath with
    | nil =>
      have hmem : a ∈ m.rows fun b => b.contextualPath = a.contextualPath :=
        m.mem_rows.mpr ⟨ha, decide_eq_true rfl⟩
      rw [hrows] at hmem
      cases hmem
    | cons b bs =>
      have hb : b ∈ m.rows fun b => b.contextualPath = a.contextualPath := by
        rw [hrows]
        exact List.mem_cons_self
      have hmem := m.mem_rows.mp hb
      rw [m.eq_of_path hmem.1 ha (of_decide_eq_true hmem.2)]
      rfl

theorem byPaths_of_distinct {request : List String} (hdistinct : request.Nodup)
    (hlength : request.length ≤ 2000) :
    ∃ rows : List Asset, m.byPaths request = some (rows.map AssetInfo.ofAsset) ∧
      (rows.map Asset.contextualPath).Nodup ∧
      ∀ a, a ∈ rows ↔ a ∈ m.catalogue.assets ∧ a.contextualPath ∈ request := by
  have hpaths : distinct (request.filter fun p => !isBlank p) =
      request.filter fun p => !isBlank p := distinct_of_nodup (hdistinct.filter _)
  have hmem (a : Asset) (ha : a ∈ m.catalogue.assets) :
      a.contextualPath ∈ request.filter (fun p => !isBlank p) ↔ a.contextualPath ∈ request := by
    rw [List.mem_filter, m.catalogue.blank a ha]
    exact and_iff_left rfl
  unfold byPaths
  rw [hpaths]
  dsimp only
  split
  · rename_i hnil
    refine ⟨[], rfl, List.nodup_nil, fun a => ⟨fun h => absurd h List.not_mem_nil, fun h => ?_⟩⟩
    have := (hmem a h.1).mpr h.2
    rw [List.eq_nil_of_length_eq_zero hnil] at this
    cases this
  · have hle := List.length_filter_le (fun p => !isBlank p) request
    rw [if_neg (by omega)]
    refine ⟨_, rfl, ?_, fun a => ?_⟩
    · refine (((m.rows_perm _).map Asset.contextualPath).nodup_iff).mpr ?_
      exact m.catalogue.unique.sublist (List.filter_sublist.map _)
    · rw [m.mem_rows, decide_eq_true_eq]
      exact and_congr_right fun ha => hmem a ha

end AssetModel

end OpenBridge.Bindings
