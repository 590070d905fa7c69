/-
  PageServer.Calendar — days and times of day in universal time.

  Years are counted as if they began in March, so that a leap day is the last day of its year;
  400 years have 146097 days.
-/

namespace PageServer

structure Date where
  year : Nat
  /-- From 1 to 12. -/
  month : Nat
  day : Nat
  deriving DecidableEq, Repr

namespace Date

/-- The days from 1 March of the year 0 to 1 January 1970. -/
def daysBefore1970 : Nat := 719468

/-- The date some days after 1 January 1970. -/
def ofDays (days : Nat) : Date :=
  let n := days + daysBefore1970
  let cycle := n / 146097
  let dayOfCycle := n % 146097
  let yearOfCycle :=
    (dayOfCycle - dayOfCycle / 1460 + dayOfCycle / 36524 - dayOfCycle / 146096) / 365
  let dayOfYear := dayOfCycle - (365 * yearOfCycle + yearOfCycle / 4 - yearOfCycle / 100)
  let monthFromMarch := (5 * dayOfYear + 2) / 153
  let month := if monthFromMarch < 10 then monthFromMarch + 3 else monthFromMarch - 9
  { year := 400 * cycle + yearOfCycle + (if month ≤ 2 then 1 else 0)
    month := month
    day := dayOfYear - (153 * monthFromMarch + 2) / 5 + 1 }

def monthName (month : Nat) : String :=
  ["Jan", "Feb", "Mar", "Apr", "May", "Jun", "Jul", "Aug", "Sep", "Oct", "Nov", "Dec"].getD
    (month - 1) ""

end Date

/-- A number in at least `width` digits. -/
def paddedNumber (width n : Nat) : String :=
  let digits := toString n
  String.ofList (List.replicate (width - digits.length) '0') ++ digits

/-- A moment, by the seconds since the start of 1970, as logs show it. -/
def timeText (seconds : Nat) : String :=
  let date := Date.ofDays (seconds / 86400)
  let second := seconds % 86400
  paddedNumber 2 date.day ++ "/" ++ Date.monthName date.month ++ "/" ++ paddedNumber 4 date.year
    ++ ":" ++ paddedNumber 2 (second / 3600) ++ ":" ++ paddedNumber 2 (second / 60 % 60)
    ++ ":" ++ paddedNumber 2 (second % 60) ++ " +0000"

/-! ## Durations -/

/-- A number of units with `places` digits after the point, of which zeros at the end are left
    out. -/
def decimalText (whole fraction places : Nat) : String :=
  let digits := (paddedNumber places fraction).toList.take places
  let digits := (digits.reverse.dropWhile (· == '0')).reverse
  if digits.isEmpty then toString whole else toString whole ++ "." ++ String.ofList digits

/-- A time span in the largest unit of which it has at least one. -/
def durationText (nanoseconds : Nat) : String :=
  if Nat.pow 10 9 ≤ nanoseconds then decimalText (nanoseconds / Nat.pow 10 9) (nanoseconds % Nat.pow 10 9) 9 ++ "s"
  else if Nat.pow 10 6 ≤ nanoseconds then
    decimalText (nanoseconds / Nat.pow 10 6) (nanoseconds % Nat.pow 10 6) 6 ++ "ms"
  else if Nat.pow 10 3 ≤ nanoseconds then
    decimalText (nanoseconds / Nat.pow 10 3) (nanoseconds % Nat.pow 10 3) 3 ++ "µs"
  else toString nanoseconds ++ "ns"

end PageServer
