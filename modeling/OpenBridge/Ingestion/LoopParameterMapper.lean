import OpenBridge.Foundation.Decimal
import OpenBridge.Foundation.Dict

/-!
# Ingestion: quality verdicts

`QualityDecoder`: a source's native quality token is read under the protocol the source declares,
and under no other.  A missing or undecodable token is `UNKNOWN`, which is not `GOOD`.
-/

namespace OpenBridge.Ingestion

open OpenBridge.Foundation

inductive QualityProtocol where
  | stringEnum
  | opcDa
  | opcUa
  | sparkplug
  | none
  deriving DecidableEq

def QualityProtocol.name : QualityProtocol → String
  | stringEnum => "STRING_ENUM"
  | opcDa => "OPC_DA"
  | opcUa => "OPC_UA"
  | sparkplug => "SPARKPLUG"
  | none => "NONE"

inductive NormalizedQuality where
  | good
  | uncertain
  | bad
  | unknown
  deriving DecidableEq

namespace NormalizedQuality

def name : NormalizedQuality → String
  | good => "GOOD"
  | uncertain => "UNCERTAIN"
  | bad => "BAD"
  | unknown => "UNKNOWN"

/-- `BAD > UNCERTAIN > UNKNOWN > GOOD`. -/
def rank : NormalizedQuality → ℕ
  | bad => 3
  | uncertain => 2
  | unknown => 1
  | good => 0

def worstOf (a b : NormalizedQuality) : NormalizedQuality := if rank a ≥ rank b then a else b

theorem worstOf_eq_good_iff (a b : NormalizedQuality) :
    worstOf a b = good ↔ a = good ∧ b = good := by
  cases a <;> cases b <;> decide

theorem name_eq_good_iff (a : NormalizedQuality) : a.name = "GOOD" ↔ a = good := by
  cases a <;> decide

end NormalizedQuality

/-- A decoded token: the verdict, the native token to carry beside it, and why it is not a plain
verdict. -/
structure DecodedQuality where
  quality : NormalizedQuality
  native : String
  reason : Option String
  deriving DecidableEq

namespace QualityDecoder

abbrev Verdict := NormalizedQuality × Option String

def reasonMissing : String := "QUALITY_MISSING"

def verdictString (token : String) : Verdict :=
  if (tryInteger token).isSome then (.unknown, some "NUMERIC_UNDER_STRING_ENUM")
  else if toUpperInvariant token = "GOOD" then (.good, none)
  else if toUpperInvariant token = "UNCERTAIN" then (.uncertain, none)
  else if toUpperInvariant token = "BAD" then (.bad, none)
  else (.unknown, some "NOT_IN_STRING_VOCABULARY")

def verdictOpcDa (code : ℤ) : Verdict :=
  if code < 0 ∨ code > 255 then (.unknown, some "OUT_OF_RANGE_FOR_OPC_DA")
  else if code / 64 = 3 then (.good, none)
  else if code / 64 = 1 then (.uncertain, none)
  else if code / 64 = 0 then (.bad, none)
  else (.unknown, some "RESERVED_OPC_DA_QUALITY")

/-- An OPC UA status code of 32 bits: bits 31-30 are the severity. -/
def verdictOpcUa (code : ℤ) : Verdict :=
  if code < 0 ∨ code > 0xFFFFFFFF then (.unknown, some "OUT_OF_RANGE_FOR_OPC_UA")
  else if code / 2 ^ 30 = 0 then (.good, none)
  else if code / 2 ^ 30 = 1 then (.uncertain, none)
  else (.bad, none)

def verdictSparkplug (code : ℤ) : Verdict :=
  if code = 192 then (.good, none)
  else if code = 500 then (.uncertain, none)
  else if code = 0 then (.bad, none)
  else (.unknown, some "UNKNOWN_SPARKPLUG_CODE")

/-- A numeric token, read by `verdict`. -/
def numeric (token notANumber : String) (verdict : ℤ → Verdict) : Verdict :=
  match tryInteger token with
  | none => (.unknown, some notANumber)
  | some code => verdict code

def verdict (protocol : QualityProtocol) (token : String) : Verdict :=
  match protocol with
  | .none => (.unknown, some "PROTOCOL_NONE")
  | .stringEnum => verdictString token
  | .opcDa => numeric token "NOT_A_NUMBER_FOR_OPC_DA" verdictOpcDa
  | .opcUa => numeric token "NOT_A_NUMBER_FOR_OPC_UA" verdictOpcUa
  | .sparkplug => numeric token "NOT_A_NUMBER_FOR_SPARKPLUG" verdictSparkplug

def decode (protocol : QualityProtocol) : Option String → DecodedQuality
  | none => ⟨.unknown, "", some reasonMissing⟩
  | some native =>
      if trim native = "" then ⟨.unknown, native, some reasonMissing⟩
      else
        ⟨(verdict protocol (trim native)).1, native, (verdict protocol (trim native)).2⟩

example : (decode .stringEnum (some " Good ")).quality = .good := by decide

end QualityDecoder

/-!
# Ingestion: from a source parameter to a role

`LoopParameterMapper.TryMap` turns a source parameter (PV, SP, MODE, P, I, …) into the role it
feeds.  What `TryMap` promises about its result, which the joiner reads without a check, is carried
by `MappedParameter` itself.
-/

/-- The fields of the gateway's envelope that the mapper and the joiner read. -/
structure OtLoopPayload where
  numericValue : Option Double
  rawValue : Option String
  unit : Option String
  quality : Option String
  tsMs : ℤ
  deriving DecidableEq

/-- The resolved settings of one data source that the mapper and the joiner read.  `Resolve`
replaces a grid that is not positive by the default, so the grid is positive. -/
structure LoopIngestSettings where
  gridSeconds : ℕ
  gridPositive : 0 < gridSeconds
  paramRoles : Dict String String
  modeValueMap : Dict String String
  bindingRevision : ℤ
  qualityProtocol : QualityProtocol

def tupleMembers : List String := ["pv", "sp", "op", "vp", "mode"]

/-- A parameter mapped to its role.  Only `mode` carries a token; every other role carries a
number. -/
structure MappedParameter where
  role : String
  isTupleMember : Bool
  numericValue : Option Double
  modeString : Option String
  isTupleMember_eq : isTupleMember = tupleMembers.contains role
  modeString_isSome : role = "mode" → modeString.isSome
  numericValue_isSome : role ≠ "mode" → numericValue.isSome

namespace MappedParameter

/-- `ModeString!`. -/
def modeToken (m : MappedParameter) (h : m.role = "mode") : String :=
  m.modeString.get (m.modeString_isSome h)

/-- `NumericValue!.Value`. -/
def number (m : MappedParameter) (h : m.role ≠ "mode") : Double :=
  m.numericValue.get (m.numericValue_isSome h)

end MappedParameter

inductive ParkReason where
  | unknownParameter
  | missingField
  deriving DecidableEq

def ParkReason.code : ParkReason → String
  | unknownParameter => "UNKNOWN_PARAMETER"
  | missingField => "MISSING_FIELD"

namespace LoopParameterMapper

/-- `|n - Math.Round(n)| < 1e-9`: the difference of a double and its rounding is exact. -/
def nearInteger : Double → Bool
  | .infinite _ => false
  | .finite q => (Double.finite |q - rint q|).lt (Double.ofRat (1 / 10 ^ 9))

/-- The key under which a value is looked up in the mode map: the integer form of a numeric value
that is integral, else the raw text without quotes.  The cast to `long` is that of values in its
range. -/
def modeKey (payload : OtLoopPayload) : String :=
  let text := trimWhere (· = '"') (trim (payload.rawValue.getD ""))
  match payload.numericValue with
  | some (.finite q) => if nearInteger (.finite q) then toString (rint q) else text
  | _ => text

/-- Integral numerics key the map by their integer form; everything else keys by the raw string.
Keys that are not in the map stand for themselves. -/
def resolveMode (payload : OtLoopPayload) (map : Dict String String) : String :=
  (map.get? (modeKey payload)).getD (modeKey payload)

/-- The observation a value makes under a canonical role. -/
def mapRole (role : String) (payload : OtLoopPayload) (cfg : LoopIngestSettings) :
    Except ParkReason MappedParameter :=
  if hmode : role = "mode" then
    .ok { role := role
          isTupleMember := true
          numericValue := payload.numericValue
          modeString := some (resolveMode payload cfg.modeValueMap)
          isTupleMember_eq := by rw [hmode]; decide
          modeString_isSome := fun _ => rfl
          numericValue_isSome := fun h => absurd hmode h }
  else
    -- a numeric role that received a value that is not a number is parked
    match payload.numericValue with
    | none => .error .missingField
    | some value =>
        .ok { role := role
              isTupleMember := tupleMembers.contains role
              numericValue := some value
              modeString := none
              isTupleMember_eq := rfl
              modeString_isSome := fun h => absurd h hmode
              numericValue_isSome := fun _ => rfl }

/-- Map a source parameter to its role.  `fold` is the equivalence of the settings' key comparer
(`OrdinalIgnoreCase`); the keys of `paramRoles` are folded. -/
def tryMap (fold : String → String) (parameter : String) (payload : OtLoopPayload)
    (cfg : LoopIngestSettings) : Except ParkReason MappedParameter :=
  match cfg.paramRoles.get? (fold parameter) with
  | none => .error .unknownParameter
  | some configuredRole => mapRole (toLowerInvariant (trim configuredRole)) payload cfg

theorem mapRole_eq_ok {role : String} {payload : OtLoopPayload} {cfg : LoopIngestSettings}
    {m : MappedParameter} (h : mapRole role payload cfg = .ok m) :
    m.role = role ∧ m.numericValue = payload.numericValue := by
  unfold mapRole at h
  split at h
  · simp only [Except.ok.injEq] at h
    rw [← h]
    exact ⟨rfl, rfl⟩
  · split at h
    · cases h
    · rename_i value hv
      simp only [Except.ok.injEq] at h
      rw [← h]
      exact ⟨rfl, hv.symm⟩

end LoopParameterMapper

end OpenBridge.Ingestion
