import Mathlib.Data.List.TakeWhile
import OpenBridge.Foundation.Text

/-!
# Ingestion: the mode vocabulary

`ModeVocabulary` tells at the mapping of a mode whether the engine will count it as automatic; the
engine decides with `CplmNormalizedSample.isAutoMode`.
-/

namespace OpenBridge.Ingestion.ModeVocabulary

open OpenBridge.Foundation

/-- The text functions that the two runtimes share: what is white space, how it is trimmed, and the
upper case.  A text of white space is trimmed to nothing. -/
structure TextRuntime where
  isWhiteSpace : Char → Bool
  trim : String → String
  toUpper : String → String
  trim_of_blank : ∀ s : String, s.toList.all isWhiteSpace = true → trim s = ""
  toUpper_empty : toUpper "" = ""

/-- `Auto` of ingestion. -/
def auto : List String :=
  ["AUTO", "AUT", "A", "AUTOMATIC", "NORMAL", "NORM",
    "CAS", "CASC", "CASCADE", "RSP", "DDC", "SUP", "SUPERVISORY"]

/-- `Manual` of ingestion. -/
def manual : List String := ["MAN", "MANUAL", "M", "IMAN", "ROUT", "LO", "LOCAL", "OFF", "TRACK"]

/-- `AUTO_MODE_TOKENS` of the engine. -/
def autoModeTokens : List String :=
  ["AUTO", "AUT", "A", "AUTOMATIC", "NORMAL", "NORM",
    "CAS", "CASC", "CASCADE", "RSP", "DDC", "SUP", "SUPERVISORY"]

/-- `MANUAL_MODE_TOKENS` of the engine. -/
def manualModeTokens : List String :=
  ["MAN", "MANUAL", "M", "IMAN", "ROUT", "LO", "LOCAL", "OFF", "TRACK"]

variable (rt : TextRuntime)

def isNullOrWhiteSpace (mode : Option String) : Bool :=
  mode.all fun s => s.toList.all rt.isWhiteSpace

def isAuto (mode : Option String) : Bool :=
  if isNullOrWhiteSpace rt mode then false
  else
    let m := rt.toUpper (rt.trim (mode.getD ""))
    if m.length = 0 ∨ m = "UNKNOWN" then false
    else if m ∈ manual then false
    else if m ∈ auto then true
    else containsText m "AUTO" || containsText m "CASCADE"

def isAutoMode (mode : Option String) : Bool :=
  match mode with
  | none => false
  | some mode =>
      let m := rt.toUpper (rt.trim mode)
      if m = "" ∨ "UNKNOWN" = m then false
      else if m ∈ manualModeTokens then false
      else if m ∈ autoModeTokens then true
      else containsText m "AUTO" || containsText m "CASCADE"

theorem isAutoMode_of_blank {mode : Option String} (h : isNullOrWhiteSpace rt mode = true) :
    isAutoMode rt mode = false := by
  cases mode with
  | none => rfl
  | some s =>
    have hempty : rt.toUpper (rt.trim s) = "" := by rw [rt.trim_of_blank s h, rt.toUpper_empty]
    unfold isAutoMode
    dsimp only
    exact if_pos (.inl hempty)

/-- The two sides give the same answer on every mode. -/
theorem isAuto_eq_isAutoMode (mode : Option String) : isAuto rt mode = isAutoMode rt mode := by
  unfold isAuto
  split
  · rename_i hblank
    exact (isAutoMode_of_blank rt hblank).symm
  · rename_i hblank
    cases mode with
    | none => exact absurd rfl hblank
    | some s =>
      have hstart (m : String) : (m.length = 0 ∨ m = "UNKNOWN") ↔ (m = "" ∨ "UNKNOWN" = m) := by
        rw [String.length_eq_zero_iff, eq_comm (a := m) (b := "UNKNOWN")]
      unfold isAutoMode
      simp only [Option.getD_some, hstart]
      rfl

/-- The .NET functions, as far as ASCII texts are compared with the result. -/
def dotnet : TextRuntime where
  isWhiteSpace := OpenBridge.Foundation.isWhiteSpace
  trim := OpenBridge.Foundation.trim
  toUpper := toUpperInvariant
  trim_of_blank s h := by
    have hdrop : s.toList.dropWhile OpenBridge.Foundation.isWhiteSpace = [] :=
      List.dropWhile_eq_nil_iff.mpr (List.all_eq_true.mp h)
    unfold OpenBridge.Foundation.trim trimWhere
    rw [hdrop]
    rfl
  toUpper_empty := rfl

example : isAuto dotnet (some " auto-cas ") = true := by decide

end OpenBridge.Ingestion.ModeVocabulary
