import Mathlib.Data.Int.Notation
import Mathlib.Data.List.Basic

/-!
# Foundation: ISO 8601 instants

`OffsetDateTime.parse` of the Java library: a local date and time and an offset, resolved strictly
(`ISO_OFFSET_DATE_TIME`), to epoch milliseconds.
-/

namespace OpenBridge.Foundation

namespace OffsetDateTime

def epochDay (year : ℤ) (month day : ℕ) : ℤ :=
  let y := if month ≤ 2 then year - 1 else year
  let era := y / 400
  let yearOfEra := y - era * 400
  let dayOfYear : ℤ := (153 * ((month + 9) % 12) + 2) / 5 + day - 1
  era * 146097 + (yearOfEra * 365 + yearOfEra / 4 - yearOfEra / 100 + dayOfYear) - 719468

def isLeapYear (year : ℤ) : Bool := year % 4 = 0 ∧ (year % 100 ≠ 0 ∨ year % 400 = 0)

def lengthOfMonth (year : ℤ) (month : ℕ) : ℕ :=
  if month = 2 then (if isLeapYear year then 29 else 28)
  else if month = 4 ∨ month = 6 ∨ month = 9 ∨ month = 11 then 30
  else 31

def digitsValue (ds : List Char) : ℕ := ds.foldl (fun n c => 10 * n + (c.toNat - '0'.toNat)) 0

def twoDigits (low high : ℕ) : List Char → Option (ℕ × List Char)
  | a :: b :: rest =>
      let v := digitsValue [a, b]
      if a.isDigit ∧ b.isDigit ∧ low ≤ v ∧ v ≤ high then some (v, rest) else none
  | _ => none

def literal (c : Char) : List Char → Option (List Char)
  | a :: rest => if a.toUpper = c then some rest else none
  | [] => none

/-- A year: four digits, more only after a sign `+`, four or more after a sign `-`. -/
def year (cs : List Char) : Option (ℤ × List Char) :=
  let body := match cs with | '-' :: rest => rest | '+' :: rest => rest | _ => cs
  let ds := (body.takeWhile Char.isDigit).take 10
  let rest := body.drop ds.length
  let v : ℤ := digitsValue ds
  let inRange := 4 ≤ ds.length ∧ v ≤ 999999999
  match cs.head? with
  | some '-' => if inRange ∧ v ≠ 0 then some (-v, rest) else none
  | some '+' => if inRange ∧ 4 < ds.length then some (v, rest) else none
  | _ => if inRange ∧ ds.length = 4 then some (v, rest) else none

def seconds (cs : List Char) : Option (ℕ × List Char) :=
  match cs with
  | ':' :: rest => do
      let (s, rest) ← twoDigits 0 59 rest
      match rest with
      | '.' :: rest =>
          let ds := (rest.takeWhile Char.isDigit).take 9
          some (s * 1000 + digitsValue ((ds ++ ['0', '0', '0']).take 3), rest.drop ds.length)
      | _ => some (s * 1000, rest)
  | _ => some (0, cs)

/-- `:` and two digits, if they stand there. -/
def optionalField (cs : List Char) : ℕ × List Char :=
  match cs with
  | ':' :: rest => (twoDigits 0 59 rest).getD (0, cs)
  | _ => (0, cs)

/-- `Z`, or a signed offset of at most 18 hours, in seconds. -/
def offset (cs : List Char) : Option (ℤ × List Char) :=
  match cs with
  | [] => none
  | sign :: rest =>
      if sign.toUpper = 'Z' then some (0, rest)
      else if sign ≠ '+' ∧ sign ≠ '-' then none
      else do
        let (h, rest) ← twoDigits 0 23 rest
        let (m, afterMinutes) := optionalField rest
        let (s, afterSeconds) :=
          if rest.length = afterMinutes.length then (0, rest) else optionalField afterMinutes
        let total : ℤ := h * 3600 + m * 60 + s
        if total ≤ 64800 then some (if sign = '-' then -total else total, afterSeconds) else none

/-- The epoch milliseconds of an ISO date and time with an offset; `none` where the library
throws. -/
def toEpochMilli (s : String) : Option ℤ := do
  let (y, rest) ← year s.toList
  let (month, rest) ← twoDigits 1 12 (← literal '-' rest)
  let (day, rest) ← twoDigits 1 (lengthOfMonth y month) (← literal '-' rest)
  let (hour, rest) ← twoDigits 0 23 (← literal 'T' rest)
  let (minute, rest) ← twoDigits 0 59 (← literal ':' rest)
  let (milli, rest) ← seconds rest
  let (off, rest) ← offset rest
  if rest = [] then
    some ((epochDay y month day * 86400 + hour * 3600 + minute * 60 - off) * 1000 + milli)
  else none

end OffsetDateTime

example : OffsetDateTime.toEpochMilli "2026-09-27T14:05:30.25+02:00" = some 1790510730250 := by
  decide

end OpenBridge.Foundation
