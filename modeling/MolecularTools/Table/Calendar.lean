import MolecularTools.Table.Layout

/-! The calendar: days counted from the first of January 1970. Years are counted from March, so
that a leap day is the last of its year. -/
namespace MolecularTools.Date

/-- Days of four hundred years, and days from the first of March in year zero to 1970. -/
def daysOfEra : Int := 146097
def daysToEpoch : Int := 719468

/-- The date `n` days after the first of January 1970. -/
def ofDays (n : Int) : Date :=
  let z := n + daysToEpoch
  let era := z / daysOfEra
  let day := (z % daysOfEra).toNat
  let year := (day - day / 1460 + day / 36524 - day / 146096) / 365
  let dayOfYear := day - (365 * year + year / 4 - year / 100)
  let month := (5 * dayOfYear + 2) / 153
  let january := 10 ≤ month
  { year := era * 400 + year + (if january then 1 else 0)
    month := if january then month - 9 else month + 3
    day := dayOfYear - (153 * month + 2) / 5 + 1 }

/-- The date at a number of seconds after the start of 1970. -/
def ofSeconds (n : Int) : Date := ofDays (n / 86400)

end MolecularTools.Date
