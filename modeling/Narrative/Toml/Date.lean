import Narrative.Scan
import Narrative.Toml

set_option autoImplicit false

/-!
# Dates and times

A date, a time of day or both, checked against the calendar. A document writes one as a
bare value (`writtenDate`). A tree of values spells one as a table whose first key is
`dateMark`, with the date as a string beside it; `Toml.withDates?` puts the dates in
their place.
-/

namespace Narrative.Toml

/-- Reads a number of exactly `n` decimal digits. -/
def fixedDigits : Nat → Nat → Scan Nat
  | 0, acc => pure acc
  | n + 1, acc => fun
      | c :: rest =>
          match Scan.digitValue? 10 c with
          | some v => fixedDigits n (acc * 10 + v) rest
          | none => none
      | [] => none

/-- The days of a month. -/
def daysIn (year month : Nat) : Nat :=
  if month = 2 then
    if year % 4 = 0 && (year % 100 != 0 || year % 400 = 0) then 29 else 28
  else if month = 4 || month = 6 || month = 9 || month = 11 then 30
  else 31

/-- Reads a date. -/
def date : Scan Unit := do
  let year ← fixedDigits 4 0
  Scan.char '-'
  let month ← fixedDigits 2 0
  Scan.char '-'
  let day ← fixedDigits 2 0
  if month = 0 || 12 < month || day = 0 || daysIn year month < day then Scan.fail

/-- Reads an hour and a minute of two digits each. -/
def hourMinute : Scan (Nat × Nat) := do
  let hour ← fixedDigits 2 0
  Scan.char ':'
  let minute ← fixedDigits 2 0
  return (hour, minute)

/-- Reads a time of day whose hour is at most `lastHour`. A minute may have a leap second. -/
def time (lastHour : Nat) : Scan Unit := do
  let (hour, minute) ← hourMinute
  Scan.char ':'
  let second ← fixedDigits 2 0
  if lastHour < hour || 59 < minute || 60 < second then Scan.fail
  if ← Scan.optional '.' then
    let ds ← Scan.run Char.isDigit
    if ds.isEmpty then Scan.fail

/-- Reads the distance of a local time from universal time, given which ones there are. -/
def offset (isDistance : Nat → Nat → Bool) : Scan Unit := do
  (do let _ ← Scan.satisfy fun c => c == 'Z' || c == 'z') <|> (do
    let _ ← Scan.satisfy fun c => c == '+' || c == '-'
    let (hour, minute) ← hourMinute
    if !isDistance hour minute then Scan.fail)

/-- Reads a date, a time or both; only both together may have an offset. -/
def dateOrTime (lastHour : Nat) (isDistance : Nat → Nat → Bool) : Scan Unit :=
  (do date
      (do let _ ← Scan.satisfy fun c => c == 'T' || c == 't' || c == ' '
          time lastHour
          offset isDistance <|> pure ()) <|> pure ()) <|> time lastHour

/-- Reads a date written as a value. Its offset is a time of day. -/
def writtenDate : Scan Toml := do
  dateOrTime 23 fun hour minute => hour ≤ 23 && minute ≤ 59
  return .datetime

/-- Reads a date written in a string. Its last hour is 24, and its offset is at most a day. -/
def quotedDate : Scan Unit :=
  dateOrTime 24 fun hour minute => hour * 60 + minute ≤ 24 * 60

/-! ## Tables that stand for dates -/

/-- The first key of a table that stands for a date. -/
def dateMark : String := "$__toml_private_datetime"

/-- The date that a value beside the mark spells. -/
def spelledDate? : Toml → Option Toml
  | .string s => (Scan.whole? quotedDate s.toList).map fun _ => .datetime
  | _ => none

mutual

/-- The value in which every table that stands for a date is one; none if the mark comes
without a date. Nothing is asked of the other entries of such a table. -/
def dated? : Toml → Option Toml
  | .array items => (datedItems? items).map .array
  | .table origin entries => datedTable? origin entries
  | .tables items => (datedTables? items).map .array
  | v => some v

/-- The values of an array. -/
def datedItems? : List Toml → Option (List Toml)
  | [] => some []
  | v :: rest => do return (← dated? v) :: (← datedItems? rest)

/-- The value of a table. -/
def datedTable? (origin : TableOrigin) : List (String × Toml) → Option Toml
  | [] => some (.table origin [])
  | (key, v) :: rest =>
      if key = dateMark then spelledDate? v
      else do return .table origin ((key, ← dated? v) :: (← datedEntries? rest))

/-- The entries of a table. -/
def datedEntries? : List (String × Toml) → Option (List (String × Toml))
  | [] => some []
  | (key, v) :: rest => do return (key, ← dated? v) :: (← datedEntries? rest)

/-- The values of an array of tables. -/
def datedTables? : List (List (String × Toml)) → Option (List Toml)
  | [] => some []
  | entries :: rest => do return (← datedTable? .header entries) :: (← datedTables? rest)

end

/-- The document with the dates that its tables stand for; the root is always a table. -/
def withDates? : Toml → Option Toml
  | .table origin entries => (datedEntries? entries).map (.table origin)
  | v => some v

end Narrative.Toml
