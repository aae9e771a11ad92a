import Mathlib.Data.List.Lemmas
import OpenBridge.Ingestion.LoopParameterMapper

/-!
# Ingestion: the configuration of a data source

`DataSourceValidation.ValidateLoopIngest`, and the settings a configuration resolves to.

`fold` is the equivalence of the dictionaries' key comparer (`OrdinalIgnoreCase`).
-/

namespace OpenBridge.Ingestion

open OpenBridge.Foundation

/-- `profile_config.loop_ingest`. -/
structure LoopIngestConfig where
  topicTemplate : Option String
  gridSeconds : Option ℤ
  futureSkewMaxSeconds : Option ℤ
  paramRoles : Option (Dict String (Option String))
  modeValueMap : Option (Dict String String)
  registryRefreshSeconds : Option ℤ
  qualityProtocol : Option String

/-- `IsNullOrWhiteSpace` of a text. -/
def blank (s : String) : Bool := trim s = ""

namespace QualityDecoder

def protocols : List QualityProtocol := [.stringEnum, .opcDa, .opcUa, .sparkplug, .none]

/-- `Enum.TryParse`: the digits of a value, or names between commas, whose values are joined. -/
def enumValue (text : String) : Option ℤ :=
  if text.toList.head?.any fun c => c.isDigit || c = '-' || c = '+' then
    (tryInteger text).filter fun n => -2 ^ 31 ≤ n ∧ n < 2 ^ 31
  else
    ((text.toList.splitOn ',').mapM fun name =>
      protocols.findIdx? fun p => p.name = trim (String.ofList name)).map fun values =>
        (values.foldl (· ||| ·) 0 : ℕ)

def tryParseProtocol (text : Option String) : Option QualityProtocol :=
  match text with
  | none => none
  | some s =>
      if blank s then none
      else (enumValue (toUpperInvariant (trim s))).bind fun n =>
        if n < 0 then none else protocols[n.toNat]?

end QualityDecoder

namespace LoopIngestConfig

def defaultParamRoles : List (String × String) :=
  [("PV", "pv"), ("SP", "sp"), ("OP", "op"), ("MODE", "mode"), ("VP", "vp"), ("SV", "sp"),
    ("MV", "op"), ("P", "p"), ("I", "i"), ("D", "d"), ("GW", "gw")]

variable (fold : String → String)

def overlayEntry (map : Dict String String) (entry : String × Option String) : Dict String String :=
  if blank entry.1 then map
  else
    match entry.2 with
    | none => map.erase (fold entry.1)
    | some role =>
        if blank role then map.erase (fold entry.1) else map.set (fold entry.1) (trim role)

def effectiveParamRoles (overlay : Option (Dict String (Option String))) : Dict String String :=
  let map := defaultParamRoles.foldl (fun d e => d.set (fold e.1) e.2) Dict.empty
  match overlay with
  | none => map
  | some overlay => overlay.entries.foldl (overlayEntry fold) map

def positiveOr (n : Option ℤ) (default : ℕ) : ℕ :=
  match n with
  | some n => if 0 < n then n.toNat else default
  | none => default

theorem positiveOr_pos (n : Option ℤ) {default : ℕ} (h : 0 < default) : 0 < positiveOr n default := by
  cases n with
  | none => exact h
  | some n =>
    simp only [positiveOr]
    split
    · omega
    · exact h

/-- `Resolve`.  The binding revision is a hash of the effective map. -/
def resolve (c : LoopIngestConfig) (bindingRevision : ℤ) : LoopIngestSettings where
  gridSeconds := positiveOr c.gridSeconds 5
  gridPositive := positiveOr_pos _ (by decide)
  paramRoles := effectiveParamRoles fold c.paramRoles
  modeValueMap := c.modeValueMap.getD Dict.empty
  bindingRevision
  qualityProtocol := (QualityDecoder.tryParseProtocol c.qualityProtocol).getD .stringEnum

end LoopIngestConfig

structure FieldError where
  error : String
  field : String
  deriving DecidableEq

namespace DataSourceValidation

def reservedTupleFields : List String :=
  ["loop_id", "event_ts_ms", "ingest_ts_ms", "quality", "loop_type", "site", "area", "unit",
    "asset_uuid", "source_fcs"]

def requiredRoles : List String := ["pv", "sp", "op", "mode"]

def roleChar (c : Char) : Bool := ('a' ≤ c && c ≤ 'z') || ('0' ≤ c && c ≤ '9') || c = '_'

def captures (template : String) : List String :=
  (template.toList.splitOn '/').filterMap fun level =>
    if 1 < level.length ∧ level.head? = some '\x7b' ∧ level.getLast? = some '\x7d' then
      some (String.ofList (level.drop 1).dropLast)
    else none

def checkTopicTemplate (template : Option String) : Option FieldError :=
  match template with
  | none => none
  | some template =>
      if blank template then none
      else (["site", "fcs", "loop", "param"].find? fun r => r ∉ captures template).map fun r =>
        ⟨"topic_template must capture \x7b" ++ r ++ "\x7d", "loop_ingest.topic_template"⟩

def checkPositive (n : Option ℤ) (name : String) : Option FieldError :=
  if n.any (· ≤ 0) then some ⟨name ++ " must be greater than 0", "loop_ingest." ++ name⟩ else none

def checkQualityProtocol (text : Option String) : Option FieldError :=
  if text.isSome ∧ QualityDecoder.tryParseProtocol text = none then
    some ⟨"quality_protocol must be one of STRING_ENUM, OPC_DA, OPC_UA, SPARKPLUG, NONE",
      "loop_ingest.quality_protocol"⟩
  else none

def checkParamRole (entry : String × Option String) : Option FieldError :=
  if blank entry.1 then some ⟨"param_roles keys must be non-blank", "loop_ingest.param_roles"⟩
  else
    match entry.2 with
    | none => none
    | some role =>
        if blank role then none
        else if trim role ∈ reservedTupleFields then
          some ⟨"role '" ++ trim role ++ "' shadows a tuple contract field", "loop_ingest.param_roles"⟩
        else if ¬ (trim role).toList.all roleChar then
          some ⟨"role '" ++ trim role ++ "' must be lowercase [a-z0-9_]", "loop_ingest.param_roles"⟩
        else none

variable (fold : String → String)

def checkRequiredRoles (overlay : Dict String (Option String)) : Option FieldError :=
  let effective := LoopIngestConfig.effectiveParamRoles fold (some overlay)
  (requiredRoles.find? fun r => r ∉ effective.values).map fun r =>
    ⟨"param_roles leaves no source parameter mapped to '" ++ r ++ "' — " ++
      "every loop on this source would stop being analysed. Map a leaf to it " ++
      "(the built-in map is overlaid, not replaced; a null value removes an entry).",
      "loop_ingest.param_roles"⟩

def checkParamRoles (overlay : Option (Dict String (Option String))) : Option FieldError :=
  match overlay with
  | none => none
  | some overlay =>
      (overlay.entries.findSome? checkParamRole).or (checkRequiredRoles fold overlay)

/-- `ValidateLoopIngest`: the first error. -/
def validateLoopIngest (c : LoopIngestConfig) : Option FieldError :=
  (checkTopicTemplate c.topicTemplate).or <|
  (checkPositive c.gridSeconds "grid_seconds").or <|
  (checkPositive c.futureSkewMaxSeconds "future_skew_max_seconds").or <|
  (checkQualityProtocol c.qualityProtocol).or <|
  (checkPositive c.registryRefreshSeconds "registry_refresh_seconds").or <|
  checkParamRoles fold c.paramRoles

/-! ## The roles of an accepted configuration -/

structure PermittedRole (role : String) : Prop where
  notReserved : role ∉ reservedTupleFields
  chars : ∀ c ∈ role.toList, roleChar c = true

theorem isWhiteSpace_of_roleChar {c : Char} (h : roleChar c = true) : isWhiteSpace c = false := by
  simp only [roleChar, Bool.or_eq_true, Bool.and_eq_true, decide_eq_true_eq, Char.le_def] at h
  simp only [isWhiteSpace, decide_eq_false_iff_not, Char.toNat]
  have hbound : 48 ≤ c.val.toNat ∧ c.val.toNat ≤ 122 := by
    rcases h with (⟨hlow, hhigh⟩ | ⟨hlow, hhigh⟩) | rfl
    · exact ⟨le_trans (by decide) (UInt32.le_iff_toNat_le.mp hlow), UInt32.le_iff_toNat_le.mp hhigh⟩
    · exact ⟨UInt32.le_iff_toNat_le.mp hlow,
        le_trans (UInt32.le_iff_toNat_le.mp hhigh) (by decide)⟩
    · decide
  omega

theorem toLower_of_roleChar {c : Char} (h : roleChar c = true) : c.toLower = c := by
  simp only [roleChar, Bool.or_eq_true, Bool.and_eq_true, decide_eq_true_eq, Char.le_def,
    UInt32.le_iff_toNat_le] at h
  refine dif_neg ?_
  rintro ⟨hlow, hhigh⟩
  rw [ge_iff_le, UInt32.le_iff_toNat_le] at hlow
  rw [UInt32.le_iff_toNat_le] at hhigh
  rcases h with (⟨hfrom, -⟩ | ⟨-, hto⟩) | rfl
  · exact absurd (le_trans hfrom hhigh) (by decide)
  · exact absurd (le_trans hlow hto) (by decide)
  · exact absurd hhigh (by decide)

theorem PermittedRole.canonical {role : String} (h : PermittedRole role) :
    toLowerInvariant (trim role) = role := by
  rw [trim, trimWhere_of_all fun c hc => isWhiteSpace_of_roleChar (h.chars c hc), toLowerInvariant]
  have hmap : role.toList.map Char.toLower = role.toList :=
    List.map_congr_left (g := id) (fun c hc => toLower_of_roleChar (h.chars c hc)) |>.trans
      (List.map_id _)
  rw [hmap, String.ofList_toList]

theorem permitted_of_checkParamRole {param role : String}
    (h : checkParamRole (param, some role) = none) (hparam : blank param = false)
    (hrole : blank role = false) : PermittedRole (trim role) := by
  simp only [checkParamRole, hparam, hrole, Bool.false_eq_true, if_false] at h
  by_cases hreserved : trim role ∈ reservedTupleFields
  · rw [if_pos hreserved] at h
    exact absurd h (by simp)
  · rw [if_neg hreserved] at h
    by_cases hchars : (trim role).toList.all roleChar = true
    · exact ⟨hreserved, fun c hc => List.all_eq_true.mp hchars c hc⟩
    · rw [if_pos hchars] at h
      exact absurd h (by simp)

theorem permitted_default {entry : String × String}
    (h : entry ∈ LoopIngestConfig.defaultParamRoles) : PermittedRole entry.2 := by
  have hall : ∀ e ∈ LoopIngestConfig.defaultParamRoles,
      e.2 ∉ reservedTupleFields ∧ e.2.toList.all roleChar = true := by decide
  exact ⟨(hall entry h).1, fun c hc => List.all_eq_true.mp (hall entry h).2 c hc⟩

def AllPermitted (map : Dict String String) : Prop :=
  ∀ param role, map.get? param = some role → PermittedRole role

variable {fold}

theorem AllPermitted.set {map : Dict String String} {param role : String} (h : AllPermitted map)
    (hrole : PermittedRole role) : AllPermitted (map.set param role) := by
  intro param' role' hget
  rw [Dict.get?_set] at hget
  split at hget
  · obtain rfl := Option.some.inj hget
    exact hrole
  · exact h param' role' hget

theorem AllPermitted.erase {map : Dict String String} {param : String} (h : AllPermitted map) :
    AllPermitted (map.erase param) := by
  intro param' role' hget
  rw [Dict.get?_erase] at hget
  split at hget
  · exact absurd hget (by simp)
  · exact h param' role' hget

theorem AllPermitted.overlayEntry {map : Dict String String} {entry : String × Option String}
    (h : AllPermitted map) (hentry : checkParamRole entry = none) :
    AllPermitted (LoopIngestConfig.overlayEntry fold map entry) := by
  obtain ⟨param, role⟩ := entry
  rw [LoopIngestConfig.overlayEntry]
  cases hparam : blank param with
  | true =>
    rw [if_pos rfl]
    exact h
  | false =>
    rw [if_neg Bool.false_ne_true]
    cases role with
    | none => exact h.erase
    | some role =>
      cases hrole : blank role with
      | true =>
        simp only [hrole, if_true]
        exact h.erase
      | false =>
        simp only [hrole, Bool.false_eq_true, if_false]
        exact h.set (permitted_of_checkParamRole hentry hparam hrole)

theorem allPermitted_default {entries : List (String × String)} {map : Dict String String}
    (hentries : ∀ e ∈ entries, PermittedRole e.2) (h : AllPermitted map) :
    AllPermitted (entries.foldl (fun d e => d.set (fold e.1) e.2) map) := by
  induction entries generalizing map with
  | nil => exact h
  | cons e rest ih =>
    exact ih (fun e' he' => hentries e' (List.mem_cons_of_mem _ he'))
      (h.set (hentries e List.mem_cons_self))

theorem allPermitted_overlay {entries : List (String × Option String)} {map : Dict String String}
    (hentries : ∀ e ∈ entries, checkParamRole e = none) (h : AllPermitted map) :
    AllPermitted (entries.foldl (LoopIngestConfig.overlayEntry fold) map) := by
  induction entries generalizing map with
  | nil => exact h
  | cons e rest ih =>
    exact ih (fun e' he' => hentries e' (List.mem_cons_of_mem _ he'))
      (h.overlayEntry (hentries e List.mem_cons_self))

theorem allPermitted_of_valid {c : LoopIngestConfig} (h : validateLoopIngest fold c = none) :
    AllPermitted (LoopIngestConfig.effectiveParamRoles fold c.paramRoles) := by
  simp only [validateLoopIngest, Option.or_eq_none_iff] at h
  obtain ⟨-, -, -, -, -, hroles⟩ := h
  have hdefault := @allPermitted_default fold LoopIngestConfig.defaultParamRoles Dict.empty
    (fun e he => permitted_default he) (fun _ _ hget => absurd hget (by simp))
  simp only [LoopIngestConfig.effectiveParamRoles]
  cases hoverlay : c.paramRoles with
  | none => exact hdefault
  | some overlay =>
    rw [hoverlay, checkParamRoles, Option.or_eq_none_iff, List.findSome?_eq_none_iff] at hroles
    exact allPermitted_overlay hroles.1 hdefault

theorem permitted_of_tryMap {c : LoopIngestConfig} (h : validateLoopIngest fold c = none)
    {bindingRevision : ℤ} {parameter : String} {payload : OtLoopPayload} {m : MappedParameter}
    (hmap : LoopParameterMapper.tryMap fold parameter payload (c.resolve fold bindingRevision) =
      .ok m) : PermittedRole m.role ∧ m.numericValue = payload.numericValue := by
  rw [LoopParameterMapper.tryMap] at hmap
  split at hmap
  · exact absurd hmap (by simp)
  · rename_i role hrole
    have hpermitted := allPermitted_of_valid h _ _ hrole
    obtain ⟨hname, hnumber⟩ := LoopParameterMapper.mapRole_eq_ok hmap
    rw [hpermitted.canonical] at hname
    rw [hname]
    exact ⟨hpermitted, hnumber⟩

end DataSourceValidation

end OpenBridge.Ingestion
