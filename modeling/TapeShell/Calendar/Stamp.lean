import TapeShell.Calendar.Layout

namespace TapeShell.Calendar

-- What a stamp says. What it leaves out is the start of the year 0 in UTC.
structure Stamp where
  year : Nat := 0
  month : Nat := 1
  day : Nat := 1
  hour : Nat := 0
  minute : Nat := 0
  second : Nat := 0
  offset : Int := 0
  deriving DecidableEq, Repr

namespace Stamp

-- A part of a layout. Numbers of two digits may lack the first one, unless they are `fixed`.
inductive Part where
  | literal (c : Char)
  | blanks
  | year
  | month (fixed : Bool)
  | day (fixed : Bool)
  | hour (fixed : Bool)
  | minute (fixed : Bool)
  -- A fraction may follow, and is passed over.
  | second (fixed : Bool)
  | zone

def number? (fixed : Bool) : Bytes → Option (Nat × Bytes)
  | [] => none
  | a :: bs =>
    if !Bytes.isDigit a then none
    else match bs with
      | b :: rest =>
        if Bytes.isDigit b then some (Bytes.digitsValue [a, b], rest)
        else if fixed then none else some (Bytes.digitValue a, bs)
      | [] => if fixed then none else some (Bytes.digitValue a, [])

def numberUpTo? (last : Nat) (fixed : Bool) (bs : Bytes) : Option (Nat × Bytes) := do
  let (n, rest) ← number? fixed bs
  guard (n ≤ last)
  return (n, rest)

def dropFraction : Bytes → Bytes
  | p :: d :: bs =>
    if (p = '.'.toUInt8 || p = ','.toUInt8) && Bytes.isDigit d then bs.dropWhile Bytes.isDigit
    else p :: d :: bs
  | bs => bs

def zone? : Bytes → Option (Int × Bytes)
  | [] => none
  | b :: bs =>
    if b = 'Z'.toUInt8 then some (0, bs)
    else do
      guard (b = '+'.toUInt8 || b = '-'.toUInt8)
      let (hours, bs) ← numberUpTo? 24 true bs
      let (minutes, bs) ← numberUpTo? 60 true (← Bytes.after? ":" bs)
      let seconds : Int := (hours * 60 + minutes) * 60
      return (if b = '-'.toUInt8 then -seconds else seconds, bs)

def readPart? (s : Stamp) (bs : Bytes) : Part → Option (Stamp × Bytes)
  | .literal c => do return (s, ← Bytes.after? (Bytes.ofChar c) bs)
  | .blanks => do
    guard (bs.head? = some ' '.toUInt8)
    return (s, bs.dropWhile (· = ' '.toUInt8))
  | .year => do
    let year ← Bytes.toNat? (bs.take 4)
    guard ((bs.take 4).length = 4)
    return ({ s with year }, bs.drop 4)
  | .month fixed => do
    let (month, rest) ← numberUpTo? 12 fixed bs
    guard (month ≠ 0)
    return ({ s with month }, rest)
  | .day fixed => do
    let (day, rest) ← number? fixed bs
    return ({ s with day }, rest)
  | .hour fixed => do
    let (hour, rest) ← numberUpTo? 23 fixed bs
    return ({ s with hour }, rest)
  | .minute fixed => do
    let (minute, rest) ← numberUpTo? 59 fixed bs
    return ({ s with minute }, rest)
  | .second fixed => do
    let (second, rest) ← numberUpTo? 59 fixed bs
    return ({ s with second }, dropFraction rest)
  | .zone => do
    let (offset, rest) ← zone? bs
    return ({ s with offset }, rest)

def readParts? (s : Stamp) (bs : Bytes) : List Part → Option (Stamp × Bytes)
  | [] => some (s, bs)
  | part :: parts => do
    let (s, rest) ← readPart? s bs part
    readParts? s rest parts

def isLeapYear (year : Nat) : Bool :=
  year % 4 = 0 && (year % 100 ≠ 0 || year % 400 = 0)

def daysIn (year month : Nat) : Nat :=
  if month = 2 then (if isLeapYear year then 29 else 28)
  else if month ∈ [4, 6, 9, 11] then 30
  else 31

def read? (layout : List Part) (bs : Bytes) : Option Stamp := do
  let (s, rest) ← readParts? {} bs layout
  guard (rest = [] ∧ 1 ≤ s.day ∧ s.day ≤ daysIn s.year s.month)
  return s

def date : List Part :=
  [.year, .literal '-', .month true, .literal '-', .day true]

def time (fixedHour seconds : Bool) : List Part :=
  [.hour fixedHour, .literal ':', .minute true] ++ (if seconds then [.literal ':', .second true] else [])

def full : List Part :=
  date ++ [.literal 'T'] ++ time false true ++ [.zone]

def secondOfDay (s : Stamp) : Nat :=
  ((s.hour * 3600 + s.minute * 60 + s.second - s.offset : Int).emod 86400).toNat

end Stamp

namespace Instant

def zoneMark (t : Instant) : Bytes :=
  if t.offset = 0 then "Z"
  else
    let minutes := t.offset.tdiv 60
    (if minutes < 0 then ("-" : Bytes) else "+") ++ twoDigits (minutes.natAbs / 60) ++ ":" ++
      twoDigits (minutes.natAbs % 60)

def stamp (t : Instant) : Bytes :=
  let year := t.date.year
  (if year < 0 then ("-" : Bytes) else []) ++ Bytes.ofNatPadded 4 year.natAbs ++ "-" ++
    twoDigits t.date.month ++ "-" ++ twoDigits t.date.day ++ "T" ++ t.clockTime ++ t.zoneMark

end Instant
end TapeShell.Calendar
