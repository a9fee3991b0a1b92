import Thumbnails.Text.Hex

/-!
# Digits of TOML

Numbers are written in digits of some base, and single underscores may stand between the digits.
-/

namespace Thumbnails

namespace Toml

def isDigitOf (base : Nat) (character : Char) : Bool :=
  match Hex.value? character with
  | some value => value < base
  | none => false

def digitsValue (base : Nat) (digits : List Char) : Nat :=
  (digits.filter (· ≠ '_')).foldl
    (fun value digit => base * value + (Hex.value? digit).getD 0) 0

/-- Whether a text is made of digits and underscores, with one digit at least. -/
def areDigits (isDigit : Char → Bool) (text : List Char) : Bool :=
  text.any isDigit && text.all fun character => isDigit character || character = '_'

/-- Whether every underscore of a text stands between two digits. -/
def areSeparated (isDigit : Char → Bool) : List Char → Bool
  | [] => true
  | [last] => last ≠ '_'
  | first :: '_' :: rest => isDigit first && rest.head?.any isDigit && areSeparated isDigit rest
  | first :: rest => first ≠ '_' && areSeparated isDigit rest

def hasLeadingZero (text : List Char) : Bool :=
  text.head? = some '0' && text.length ≠ 1

end Toml

end Thumbnails
