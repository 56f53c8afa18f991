import AsmLens.Fault
import AsmLens.Text.Integer

/-!
# Days and moments

A settings file can hold days, and moments: a day with a time of day, and perhaps with how far the
clocks of a place are ahead. A moment of a place is told from others by when it is, and cannot be
compared with one that has no place.
-/

namespace AsmLens.Yaml

/-- A number with zeros in front up to a width. -/
def padZeros (width n : Nat) : String :=
  let ds := Text.ofNat n
  String.ofList (List.replicate (width - ds.length) '0' ++ ds)

/-! ## Days -/

/-- The number of days of a month. -/
def monthDays (year month : Nat) : Nat :=
  if month = 2 then
    if year % 4 = 0 && (year % 100 ≠ 0 || year % 400 = 0) then 29 else 28
  else if [4, 6, 9, 11].contains month then 30 else 31

/-- The number of days before a day, counted from the first day of the first year. -/
def daysBefore (year month day : Nat) : Nat :=
  let y := year - 1
  y * 365 + y / 4 - y / 100 + y / 400 +
    (List.range' 1 (month - 1)).foldl (fun n m => n + monthDays year m) 0 + (day - 1)

/-- A date: year, month and day. -/
def dateText (year month day : Nat) : String :=
  padZeros 4 year ++ "-" ++ padZeros 2 month ++ "-" ++ padZeros 2 day

/-- Fails unless there is such a day. -/
def checkDay (year month day : Nat) : Except Fault Unit :=
  if year = 0 then .error (.other .value "year 0 is out of range")
  else if month = 0 || 12 < month then .error (.other .value "month must be in 1..12")
  else if day = 0 || monthDays year month < day then
    .error (.other .value "day is out of range for month")
  else .ok ()

/-! ## Moments -/

/-- A day and a time of day. -/
structure Moment where
  year : Nat
  month : Nat
  day : Nat
  hour : Nat
  minute : Nat
  second : Nat
  microsecond : Nat
  /-- How many minutes the clocks of the place are ahead, if there is a place. -/
  zone : Option Int
deriving DecidableEq, Repr

namespace Moment

/-- When a moment is, in microseconds; by its own clock if it has no place. -/
def instant (m : Moment) : Int :=
  let minutes : Int := (daysBefore m.year m.month m.day * 24 + m.hour) * 60 + m.minute
  ((minutes - m.zone.getD 0) * 60 + m.second) * 1000000 + m.microsecond

/-- Whether two moments can be compared. -/
def comparable (m n : Moment) : Bool := m.zone.isSome = n.zone.isSome

/-- Whether two moments are the same. -/
def same (m n : Moment) : Bool := m.comparable n && m.instant = n.instant

/-- An offset of minutes in hours and minutes. -/
def zoneText (z : Int) : String :=
  (if z < 0 then "-" else "+") ++ padZeros 2 (z.natAbs / 60) ++ ":" ++ padZeros 2 (z.natAbs % 60)

/-- A moment as it is written. -/
def text (m : Moment) : String :=
  dateText m.year m.month m.day ++ " " ++ padZeros 2 m.hour ++ ":" ++ padZeros 2 m.minute ++ ":" ++
    padZeros 2 m.second ++ (if m.microsecond = 0 then "" else "." ++ padZeros 6 m.microsecond) ++
    (m.zone.map zoneText).getD ""

/-- A span of minutes as messages show it: whole days, and the seconds of a day that are over. -/
def inspectSpan (z : Int) : String :=
  let days := if z / 1440 = 0 then [] else ["days=" ++ toString (z / 1440)]
  let seconds := if z % 1440 = 0 then [] else ["seconds=" ++ toString (z % 1440 * 60)]
  "datetime.timedelta(" ++ ", ".intercalate (days ++ seconds) ++ ")"

/-- An offset of minutes as messages show it. -/
def inspectZone (z : Int) : String :=
  if z = 0 then "datetime.timezone.utc" else "datetime.timezone(" ++ inspectSpan z ++ ")"

/-- The form in which messages show a moment. -/
def inspect (m : Moment) : String :=
  let time :=
    if m.microsecond = 0 then if m.second = 0 then [] else [m.second] else [m.second, m.microsecond]
  let numbers := [m.year, m.month, m.day, m.hour, m.minute] ++ time
  let zone := (m.zone.map fun z => ", tzinfo=" ++ inspectZone z).getD ""
  "datetime.datetime(" ++ ", ".intercalate (numbers.map toString) ++ zone ++ ")"

/-- The fault of an offset of a day or more. -/
def tooFar (z : Int) : Fault :=
  .other .value ("offset must be a timedelta strictly between -timedelta(hours=24) and " ++
    "timedelta(hours=24), not " ++ inspectSpan z ++ ".")

/-- Fails unless there is such a moment. -/
def check (m : Moment) : Except Fault Unit := do
  match m.zone with
  | some z => if 1440 ≤ z.natAbs then throw (tooFar z)
  | none => pure ()
  checkDay m.year m.month m.day
  if 24 ≤ m.hour then throw (.other .value "hour must be in 0..23")
  if 60 ≤ m.minute then throw (.other .value "minute must be in 0..59")
  if 60 ≤ m.second then throw (.other .value "second must be in 0..59")

end Moment

example : (⟨2001, 12, 14, 21, 59, 43, 100000, some (-300)⟩ : Moment).same
    ⟨2001, 12, 15, 2, 59, 43, 100000, some 0⟩ = true := by decide +kernel

end AsmLens.Yaml
