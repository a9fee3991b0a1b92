/-!
# Hexadecimal digits

Digests, escapes and masked bytes are written in base sixteen.
-/

namespace Thumbnails

namespace Hex

def digit (number : Nat) : Char :=
  if number % 16 < 10 then Char.ofNat (48 + number % 16) else Char.ofNat (87 + number % 16)

def upperDigit (number : Nat) : Char :=
  if number % 16 < 10 then Char.ofNat (48 + number % 16) else Char.ofNat (55 + number % 16)

def value? (character : Char) : Option Nat :=
  if '0' ≤ character ∧ character ≤ '9' then some (character.toNat - 48)
  else if 'a' ≤ character ∧ character ≤ 'f' then some (character.toNat - 87)
  else if 'A' ≤ character ∧ character ≤ 'F' then some (character.toNat - 55)
  else none

def byte (value : UInt8) : List Char :=
  [digit (value.toNat / 16), digit value.toNat]

def upperByte (value : UInt8) : List Char :=
  [upperDigit (value.toNat / 16), upperDigit value.toNat]

/-- The eight digits of a word, most significant first. -/
def word (value : UInt32) : List Char :=
  [28, 24, 20, 16, 12, 8, 4, 0].map fun shift => digit (value.toNat >>> shift)

end Hex

end Thumbnails
