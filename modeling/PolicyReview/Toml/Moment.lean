import PolicyReview.Toml.Numeral

/-!
# TOML dates and times

A moment is a date, a time, or a date with a time behind a letter or a blank.  Dates are checked
against the calendar, and only a date with a time has an offset.
-/

namespace PolicyReview
namespace Toml

/-- A number of exactly `width` decimal digits at the front of a text. -/
def fixedDigits? (width : Nat) (text : List Char) : Option (Nat × List Char) :=
  let digits := text.take width
  if digits.length = width ∧ digits.all isDecimal then
    some (digitsValue 10 digits, text.drop width)
  else none

/-- The number of days of a month. -/
def daysOf (year month : Nat) : Nat :=
  if month = 2 then
    if year % 4 = 0 ∧ (year % 100 ≠ 0 ∨ year % 400 = 0) then 29 else 28
  else if month = 4 ∨ month = 6 ∨ month = 9 ∨ month = 11 then 30
  else 31

/-- A date at the front of a text. -/
def date? (text : List Char) : Option (Date × List Char) := do
  let (year, text) ← fixedDigits? 4 text
  match text with
  | '-' :: text =>
    let (month, text) ← fixedDigits? 2 text
    match text with
    | '-' :: text =>
      let (day, text) ← fixedDigits? 2 text
      if 1 ≤ month ∧ month ≤ 12 ∧ 1 ≤ day ∧ day ≤ daysOf year month then
        some (⟨year, month, day⟩, text)
      else none
    | _ => none
  | _ => none

/-- The fraction of a second at the front of a text, if there is one. -/
def secondFraction? : List Char → Option (List Char × List Char)
  | '.' :: text => someDigits? text
  | text => some ([], text)

/-- A time at the front of a text; a minute may have a sixty-first second. -/
def time? (text : List Char) : Option (Time × List Char) := do
  let (hour, text) ← fixedDigits? 2 text
  match text with
  | ':' :: text =>
    let (minute, text) ← fixedDigits? 2 text
    if 23 < hour ∨ 59 < minute then none
    else
      match text with
      | ':' :: text =>
        let (second, text) ← fixedDigits? 2 text
        if 60 < second then none
        else do
          let (fraction, text) ← secondFraction? text
          some (⟨hour, minute, some second, fraction⟩, text)
      | text => some (⟨hour, minute, none, []⟩, text)
  | _ => none

/-- An offset in hours and minutes. -/
def offsetMinutes? (text : List Char) : Option Int := do
  let (hour, text) ← fixedDigits? 2 text
  match text with
  | ':' :: text =>
    let (minute, text) ← fixedDigits? 2 text
    if text.isEmpty ∧ hour ≤ 23 ∧ minute ≤ 59 then some (60 * hour + minute : Nat) else none
  | _ => none

/-- The offset that ends a date with time, if there is one. -/
def offset? : List Char → Option (Option Int)
  | [] => some none
  | ['Z'] => some (some 0)
  | ['z'] => some (some 0)
  | '+' :: text => (offsetMinutes? text).map some
  | '-' :: text => (offsetMinutes? text).map fun minutes => some (-minutes)
  | _ => none

/-- A time of day alone. -/
def localTime? (text : List Char) : Option Moment := do
  let (time, rest) ← time? text
  if rest.isEmpty then some ⟨none, some time, none⟩ else none

/-- A date, or a date with a time behind a letter or a blank. -/
def dated? (text : List Char) : Option Moment := do
  let (date, rest) ← date? text
  match rest with
  | [] => some ⟨some date, none, none⟩
  | separator :: rest =>
    if separator = 'T' ∨ separator = 't' ∨ separator = ' ' then do
      let (time, rest) ← time? rest
      let offset ← offset? rest
      some ⟨some date, some time, offset⟩
    else none

/-- A date, a time, or both. -/
def moment? (text : List Char) : Option Moment :=
  (dated? text).or (localTime? text)

end Toml
end PolicyReview
