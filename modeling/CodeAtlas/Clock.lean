/-
  File:      CodeAtlas/Clock.lean
  Subject:   Dates of the Gregorian calendar and the times of log files.

  A year is taken to begin in March, so that the day that leap years add is its
  last one. Four hundred such years have 146097 days.

  * `Date.ofDays`: the date that lies a number of days after the first of January 1970.
  * `clockText`: a time as it is written into log files.
-/
import CodeAtlas.Text.Basic

namespace CodeAtlas

/-- A date. -/
structure Date where
  year : Int
  month : Nat
  day : Nat
  deriving DecidableEq, Repr

/-- The date that lies a number of days after the first of January 1970. -/
def Date.ofDays (days : Int) : Date :=
  let shifted := days + 719468
  let era := shifted.fdiv 146097
  let ofEra := (shifted.fmod 146097).toNat
  let yearOfEra := (ofEra - ofEra / 1460 + ofEra / 36524 - ofEra / 146096) / 365
  let ofYear := ofEra - (365 * yearOfEra + yearOfEra / 4 - yearOfEra / 100)
  let fromMarch := (5 * ofYear + 2) / 153
  let day := ofYear - (153 * fromMarch + 2) / 5 + 1
  let month := if fromMarch < 10 then fromMarch + 3 else fromMarch - 9
  let year : Int := yearOfEra + era * 400
  ⟨if month ≤ 2 then year + 1 else year, month, day⟩

/-- The digits of a number, with zeros before it up to a width. -/
def paddedNumber (width n : Nat) : Text :=
  let digits := Text.ofNat n
  List.replicate (width - digits.length) '0' ++ digits

/-- A time, given in seconds after the start of 1970 and thousandths of a second. -/
def clockText (seconds : Int) (millis : Nat) : Text :=
  let date := Date.ofDays (seconds.fdiv 86400)
  let ofDay := (seconds.fmod 86400).toNat
  paddedNumber 4 date.year.toNat ++ "-" ++ paddedNumber 2 date.month ++ "-" ++
    paddedNumber 2 date.day ++ " " ++ paddedNumber 2 (ofDay / 3600) ++ ":" ++
    paddedNumber 2 (ofDay / 60 % 60) ++ ":" ++ paddedNumber 2 (ofDay % 60) ++ "," ++
    paddedNumber 3 millis

end CodeAtlas
