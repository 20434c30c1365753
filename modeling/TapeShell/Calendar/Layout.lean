import TapeShell.Calendar.Instant

namespace TapeShell.Calendar

def dayNames : List String :=
  ["Sunday", "Monday", "Tuesday", "Wednesday", "Thursday", "Friday", "Saturday"]

def monthNames : List String :=
  ["January", "February", "March", "April", "May", "June", "July", "August", "September", "October",
    "November", "December"]

def zeroPadded (width : Nat) (n : Int) : Bytes :=
  if n < 0 then '-'.toUInt8 :: Bytes.ofNatPadded (width - 1) n.natAbs
  else Bytes.ofNatPadded width n.toNat

def twoDigits (n : Nat) : Bytes :=
  Bytes.ofNatPadded 2 n

def signedOffset (n : Int) : Bytes :=
  (if n < 0 then '-'.toUInt8 else '+'.toUInt8) :: Bytes.ofNatPadded 4 n.natAbs

namespace Instant

def dayName (t : Instant) : Bytes :=
  dayNames.getD t.weekday ""

def monthName (t : Instant) : Bytes :=
  monthNames.getD (t.date.month - 1) ""

def hour12 (t : Instant) : Nat :=
  if t.hour % 12 = 0 then 12 else t.hour % 12

def clockTime (t : Instant) : Bytes :=
  twoDigits t.hour ++ ":" ++ twoDigits t.minute ++ ":" ++ twoDigits t.second

def shortDate (t : Instant) : Bytes :=
  twoDigits t.date.month ++ "/" ++ twoDigits t.date.day ++ "/" ++ zeroPadded 2 (t.date.year.tmod 100)

def halfOfDay (t : Instant) : Bytes :=
  if t.hour < 12 then "AM" else "PM"

def spacedDay (t : Instant) : Bytes :=
  Bytes.padLeft 2 ' ' (Bytes.ofNat t.date.day)

def directive? (t : Instant) : Char → Option Bytes
  | 'a' => some (t.dayName.take 3)
  | 'A' => some t.dayName
  | 'b' => some (t.monthName.take 3)
  | 'B' => some t.monthName
  | 'c' => some (t.dayName.take 3 ++ " " ++ t.monthName.take 3 ++ " " ++ t.spacedDay ++ " " ++
      t.clockTime ++ " " ++ Bytes.ofInt t.date.year)
  | 'C' => some (Bytes.ofInt (t.date.year.tdiv 100))
  | 'd' => some (twoDigits t.date.day)
  | 'D' => some t.shortDate
  | 'e' => some t.spacedDay
  | 'F' => some (Bytes.ofInt t.date.year ++ "-" ++ twoDigits t.date.month ++ "-" ++ twoDigits t.date.day)
  | 'g' => some (zeroPadded 2 (t.isoWeek.1.tmod 100))
  | 'G' => some (Bytes.ofInt t.isoWeek.1)
  | 'H' => some (twoDigits t.hour)
  | 'I' => some (twoDigits t.hour12)
  | 'j' => some (Bytes.ofNatPadded 3 t.dayOfYear)
  | 'm' => some (twoDigits t.date.month)
  | 'M' => some (twoDigits t.minute)
  | 'n' => some "\n"
  | 'p' => some t.halfOfDay
  | 'r' => some (twoDigits t.hour12 ++ ":" ++ twoDigits t.minute ++ ":" ++ twoDigits t.second ++ " " ++
      t.halfOfDay)
  | 'R' => some (twoDigits t.hour ++ ":" ++ twoDigits t.minute)
  | 'S' => some (twoDigits t.second)
  | 't' => some "\t"
  | 'T' => some t.clockTime
  | 'u' => some (Bytes.ofNat (if t.weekday = 0 then 7 else t.weekday))
  | 'U' => some (twoDigits t.isoWeek.2)
  | 'V' => some (twoDigits t.isoWeek.2)
  | 'w' => some (Bytes.ofNat t.weekday)
  | 'W' => some (twoDigits (t.isoWeek.2 - 1))
  | 'x' => some t.shortDate
  | 'X' => some t.clockTime
  | 'y' => some (zeroPadded 2 (t.date.year.tmod 100))
  | 'Y' => some (Bytes.ofInt t.date.year)
  | 'z' => some (signedOffset t.offset)
  | 'Z' => some t.zone
  | '%' => some "%"
  | _ => none

-- Writes a point in time by a layout. What is no directive stands for itself.
def format (t : Instant) : (layout : Bytes) → Bytes
  | [] => []
  | [b] => [b]
  | b :: d :: layout =>
    if b = '%'.toUInt8 then
      (t.directive? (Char.ofUInt8 d)).getD [b, d] ++ t.format layout
    else b :: t.format (d :: layout)

end Instant

abbrev Formatter : Type :=
  (layout : Bytes) → Instant → Bytes

def strftime : Formatter := fun layout t =>
  t.format layout

end TapeShell.Calendar
