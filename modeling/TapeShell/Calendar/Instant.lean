import TapeShell.Text.Decimal

namespace TapeShell.Calendar

structure Instant where
  unix : Int
  zone : Bytes := "UTC"
  offset : Int := 0

structure Date where
  year : Int
  month : Nat
  day : Nat
  deriving DecidableEq, Repr

def daysToMarch (year : Int) : Int :=
  365 * year + year.fdiv 4 - year.fdiv 100 + year.fdiv 400 - 719468

-- The day that is `days` after 1970-01-01. Years are counted from March here, so that a leap day is the last
-- day of its year, and 400 years have 146097 days.
def Date.ofDays (days : Int) : Date :=
  let z := days + 719468
  let era := z.fdiv 146097
  let dayOfEra := (z - era * 146097).toNat
  let yearOfEra := (dayOfEra - dayOfEra / 1460 + dayOfEra / 36524 - dayOfEra / 146096) / 365
  let dayOfYear := dayOfEra - (365 * yearOfEra + yearOfEra / 4 - yearOfEra / 100)
  let marchMonth := (5 * dayOfYear + 2) / 153
  let day := dayOfYear - (153 * marchMonth + 2) / 5 + 1
  let month := if marchMonth < 10 then marchMonth + 3 else marchMonth - 9
  let year := yearOfEra + era * 400
  ⟨if month ≤ 2 then year + 1 else year, month, day⟩

def daysToYear (year : Int) : Int :=
  daysToMarch (year - 1) + 306

namespace Instant

-- The earliest time that there is, on the first of March of the year -292277022400. Seconds are counted from
-- it in 64 bits.
def earliest : Int := -9223372028741760000

-- Seconds in the time zone; times that 64 bits cannot tell apart are the same.
def localSeconds (t : Instant) : Int :=
  (t.unix + t.offset - earliest).emod UInt64.size + earliest

def days (t : Instant) : Int :=
  t.localSeconds.fdiv 86400

def secondOfDay (t : Instant) : Nat :=
  (t.localSeconds.fmod 86400).toNat

def date (t : Instant) : Date :=
  .ofDays t.days

def hour (t : Instant) : Nat :=
  t.secondOfDay / 3600

def minute (t : Instant) : Nat :=
  t.secondOfDay / 60 % 60

def second (t : Instant) : Nat :=
  t.secondOfDay % 60

def weekday (t : Instant) : Nat :=
  ((t.days + 4).fmod 7).toNat

def dayOfYear (t : Instant) : Nat :=
  (t.days - daysToYear t.date.year).toNat + 1

-- The year and the number of the week, where a week belongs to the year of its Thursday.
def isoWeek (t : Instant) : Int × Nat :=
  let thursday := t.days + 3 - (t.days + 3).fmod 7
  let year := (Date.ofDays thursday).year
  (year, (thursday - daysToYear year).toNat / 7 + 1)

end Instant
end TapeShell.Calendar
