import Thumbnails.Toml.Digits

/-!
# Dates and times of TOML

A moment is a date, a time of day, or both, and then an offset from universal time may follow.
-/

namespace Thumbnails

namespace Toml

def daysOf (year month : Nat) : Nat :=
  if month = 2 then
    if year % 4 = 0 ∧ (year % 100 ≠ 0 ∨ year % 400 = 0) then 29 else 28
  else if month = 4 ∨ month = 6 ∨ month = 9 ∨ month = 11 then 30
  else 31

def plainDigits? (text : List Char) : Option Nat :=
  if text.all Char.isDigit then some (digitsValue 10 text) else none

def isDate (text : List Char) : Bool :=
  match text with
  | [y1, y2, y3, y4, '-', m1, m2, '-', d1, d2] =>
    match plainDigits? [y1, y2, y3, y4], plainDigits? [m1, m2], plainDigits? [d1, d2] with
    | some year, some month, some day =>
      1 ≤ month && month ≤ 12 && 1 ≤ day && day ≤ daysOf year month
    | _, _, _ => false
  | _ => false

def isUpTo (limit : Nat) (first second : Char) : Bool :=
  match plainDigits? [first, second] with
  | some value => value ≤ limit
  | none => false

/-- Whether a text is a fraction of a second, or nothing. -/
def isSecondFraction (text : List Char) : Bool :=
  match text with
  | [] => true
  | '.' :: digits => !digits.isEmpty && digits.all Char.isDigit
  | _ => false

/-- Whether a text is a time of day. Seconds may be left out. -/
def isTime (text : List Char) : Bool :=
  match text with
  | h1 :: h2 :: ':' :: m1 :: m2 :: rest =>
    isUpTo 23 h1 h2 && isUpTo 59 m1 m2 &&
      match rest with
      | [] => true
      | ':' :: s1 :: s2 :: fraction => isUpTo 60 s1 s2 && isSecondFraction fraction
      | _ => false
  | _ => false

/-- Whether a text is an offset from universal time, or nothing. -/
def isOffset (text : List Char) : Bool :=
  match text with
  | [] => true
  | ['Z'] => true
  | ['z'] => true
  | [sign, h1, h2, ':', m1, m2] =>
    (sign = '+' || sign = '-') && isUpTo 23 h1 h2 && isUpTo 59 m1 m2
  | _ => false

/-- Whether a text is a date, a time, or both with or without an offset. -/
def isMoment (text : List Char) : Bool :=
  let date := text.take 10
  match text.drop 10 with
  | [] => isDate text || isTime text
  | separator :: rest =>
    let startsOffset := fun (character : Char) =>
      character = 'Z' || character = 'z' || character = '+' || character = '-'
    let time := rest.takeWhile fun character => !startsOffset character
    let offset := rest.dropWhile fun character => !startsOffset character
    let dated := (separator = 'T' || separator = 't' || separator = ' ') && isDate date &&
      isTime time && isOffset offset
    dated || isTime text

end Toml

end Thumbnails
