import CodeQuality.Fault

namespace CodeQuality

/-!
Dates and moments.

A date is the number of days since the day before the first of January of year one,
in the Gregorian calendar continued backwards.  A moment is a date and the number of
microseconds since midnight.  Dates reach to the end of year 9999.
-/

/-- A day, counted from the first of January of year one, which is day one. -/
structure Date where
  ordinal : Int
deriving DecidableEq

namespace Date

/-- The days before the first of March of a year; every fourth year has one day more, except for
full centuries that four hundred does not divide. -/
def beforeMarch (year : Int) : Int := 365 * year + year / 4 - year / 100 + year / 400

/-- The days from the first of March to the first of a month, with March as month nought. -/
def beforeMonth (month : Int) : Int := (153 * month + 2) / 5

/-- The date of a day in a month of a year. -/
def ofCivil (year month day : Int) : Date :=
  let shifted := if month ≤ 2 then year - 1 else year
  let fromMarch := if month ≤ 2 then month + 9 else month - 3
  ⟨beforeMarch shifted + beforeMonth fromMarch + day - 306⟩

/-- The year, the month and the day of a date. -/
def civil (date : Date) : Int × Int × Int :=
  let days := date.ordinal + 305
  let era := days / 146097
  let inEra := days % 146097
  let yearInEra := (inEra - inEra / 1460 + inEra / 36524 - inEra / 146096) / 365
  let inYear := inEra - (365 * yearInEra + yearInEra / 4 - yearInEra / 100)
  let fromMarch := (5 * inYear + 2) / 153
  let day := inYear - beforeMonth fromMarch + 1
  let month := if fromMarch < 10 then fromMarch + 3 else fromMarch - 9
  (yearInEra + era * 400 + (if month ≤ 2 then 1 else 0), month, day)

/-- A number with as many digits as a width says. -/
def padded (width : Nat) (n : Int) : String :=
  let digits := toString n.toNat
  String.ofList (List.replicate (width - digits.length) '0') ++ digits

/-- The text of a date. -/
def text (date : Date) : String :=
  let (year, month, day) := date.civil
  padded 4 year ++ "-" ++ padded 2 month ++ "-" ++ padded 2 day

/-- The date some days earlier; it has to lie in year one or later. -/
def earlier (date : Date) (days : Nat) : Outcome Date :=
  if date.ordinal - days < 1 then .error (.overflow "date value out of range")
  else .ok ⟨date.ordinal - days⟩

end Date

/-- A moment: a date, and the microseconds since midnight. -/
structure Moment where
  date : Date
  microseconds : Nat
deriving DecidableEq

namespace Moment

/-- The text of a moment; fractions of a second are shown only if there are any. -/
def text (moment : Moment) : String :=
  let seconds := moment.microseconds / 1000000
  let fraction := moment.microseconds % 1000000
  moment.date.text ++ "T" ++ Date.padded 2 (seconds / 3600 : Nat) ++ ":" ++
    Date.padded 2 (seconds / 60 % 60 : Nat) ++ ":" ++ Date.padded 2 (seconds % 60 : Nat) ++
    if fraction = 0 then "" else "." ++ Date.padded 6 fraction

/-- The microseconds since the first of January of 1970. -/
def sinceEpoch (moment : Moment) : Int :=
  (moment.date.ordinal - 719163) * 86400000000 + moment.microseconds

/-- The whole seconds since the first of January of 1970; fractions are cut off. -/
def timestamp (moment : Moment) : Int := moment.sinceEpoch.tdiv 1000000

/-- Whether one moment is before another. -/
def isBefore (moment other : Moment) : Bool := moment.sinceEpoch < other.sinceEpoch

/-- The number that decimal digits stand for. -/
def digitsValue (digits : List Char) : Nat :=
  digits.foldl (fun value c => value * 10 + (c.toNat - '0'.toNat)) 0

/-- The moment of a text such as `2025-01-02T03:04:05`, with any fraction of a second behind it;
digits of the fraction beyond the sixth do not count. -/
def ofText (text : String) : Moment :=
  let chars := text.toList
  let number := fun (start width : Nat) => digitsValue ((chars.drop start).take width)
  let fraction := ((chars.drop 20).take 6)
  let scaled := digitsValue (fraction ++ List.replicate (6 - fraction.length) '0')
  ⟨Date.ofCivil (number 0 4) (number 5 2) (number 8 2),
    ((number 11 2 * 60 + number 14 2) * 60 + number 17 2) * 1000000 + scaled⟩

end Moment
end CodeQuality
