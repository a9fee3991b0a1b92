/-!
# Bytes read as text

File names are arbitrary bytes, and most of them are text in UTF-8. This module cuts a byte list
into its characters and its ill-formed pieces. A piece is ill-formed because no continuation makes
it a character, and it is maximal: the bytes that still began a character stay together.

The scan is a state machine that looks at one byte at a time. Its state is either nothing or an
open sequence, so it is structurally recursive, and a byte below 128 always starts afresh. The last
fact is `pieces_append_ascii`: an ASCII separator cuts the text where it cuts the bytes.
-/

namespace Thumbnails

namespace Utf8

/-- A piece of a byte list: one character, or the bytes of a maximal ill-formed piece. -/
inductive Piece where
  | scalar (character : Char)
  | illFormed (bytes : List UInt8)
  deriving DecidableEq, Repr

/-- The bytes of a character read so far, with the range that the next byte has to lie in. -/
structure OpenSequence where
  bytes : List UInt8
  /-- The number that the payload bits read so far spell. -/
  value : Nat
  missing : Nat
  lowest : UInt8
  highest : UInt8
  deriving DecidableEq, Repr

/-- What a byte means when no sequence is open. -/
inductive Opening where
  | complete (piece : Piece)
  | incomplete (sequence : OpenSequence)

/-- A lead byte opens a sequence. The narrowed ranges exclude overlong forms and surrogates. -/
def opening (byte : UInt8) : Opening :=
  if byte < 0x80 then .complete (.scalar (Char.ofNat byte.toNat))
  else if byte < 0xc2 then .complete (.illFormed [byte])
  else if byte < 0xe0 then .incomplete ⟨[byte], byte.toNat - 0xc0, 1, 0x80, 0xbf⟩
  else if byte = 0xe0 then .incomplete ⟨[byte], 0, 2, 0xa0, 0xbf⟩
  else if byte = 0xed then .incomplete ⟨[byte], 13, 2, 0x80, 0x9f⟩
  else if byte < 0xf0 then .incomplete ⟨[byte], byte.toNat - 0xe0, 2, 0x80, 0xbf⟩
  else if byte = 0xf0 then .incomplete ⟨[byte], 0, 3, 0x90, 0xbf⟩
  else if byte < 0xf4 then .incomplete ⟨[byte], byte.toNat - 0xf0, 3, 0x80, 0xbf⟩
  else if byte = 0xf4 then .incomplete ⟨[byte], 4, 3, 0x80, 0x8f⟩
  else .complete (.illFormed [byte])

def OpenSequence.extend (sequence : OpenSequence) (byte : UInt8) : OpenSequence :=
  { bytes := sequence.bytes ++ [byte]
    value := sequence.value * 64 + (byte.toNat - 0x80)
    missing := sequence.missing - 1
    lowest := 0x80
    highest := 0xbf }

def OpenSequence.accepts (sequence : OpenSequence) (byte : UInt8) : Bool :=
  sequence.lowest ≤ byte && byte ≤ sequence.highest

/-- The pieces of a byte list that follows an open sequence, if there is one. -/
def piecesFrom : Option OpenSequence → List UInt8 → List Piece
  | none, [] => []
  | some sequence, [] => [.illFormed sequence.bytes]
  | none, byte :: rest =>
    match opening byte with
    | .complete piece => piece :: piecesFrom none rest
    | .incomplete sequence => piecesFrom (some sequence) rest
  | some sequence, byte :: rest =>
    if sequence.accepts byte then
      let extended := sequence.extend byte
      if extended.missing = 0 then
        .scalar (Char.ofNat extended.value) :: piecesFrom none rest
      else piecesFrom (some extended) rest
    else
      .illFormed sequence.bytes ::
        match opening byte with
        | .complete piece => piece :: piecesFrom none rest
        | .incomplete sequence => piecesFrom (some sequence) rest

/-- The characters and ill-formed pieces of a byte list, in order. -/
def pieces (bytes : List UInt8) : List Piece :=
  piecesFrom none bytes

def replacement : Char := '\ufffd'

def Piece.display : Piece → Char
  | .scalar character => character
  | .illFormed _ => replacement

def Piece.character? : Piece → Option Char
  | .scalar character => some character
  | .illFormed _ => none

/-- The text of a byte list, with one replacement character for each ill-formed piece. -/
def decodeLossy (bytes : List UInt8) : List Char :=
  (pieces bytes).map Piece.display

/-- The text of a byte list that is well-formed throughout. -/
def decode? (bytes : List UInt8) : Option (List Char) :=
  (pieces bytes).mapM Piece.character?

def encode (text : List Char) : List UInt8 :=
  text.flatMap String.utf8EncodeChar

def bytesOf (text : String) : List UInt8 :=
  encode text.toList

def lossyString (bytes : List UInt8) : String :=
  String.ofList (decodeLossy bytes)

def string? (bytes : List UInt8) : Option String :=
  (decode? bytes).map String.ofList

theorem opening_ascii {byte : UInt8} (ascii : byte < 0x80) :
    opening byte = .complete (.scalar (Char.ofNat byte.toNat)) := by
  simp [opening, ascii]

/-- Nothing in progress accepts an ASCII byte. -/
def OpenSequence.ExpectsContinuation (sequence : OpenSequence) : Prop :=
  0x80 ≤ sequence.lowest

theorem OpenSequence.not_accepts_ascii {sequence : OpenSequence} {byte : UInt8}
    (expects : sequence.ExpectsContinuation) (ascii : byte < 0x80) :
    sequence.accepts byte = false := by
  simp only [accepts, Bool.and_eq_false_iff, decide_eq_false_iff_not]
  left
  intro lowest_le
  simp only [ExpectsContinuation, UInt8.le_iff_toNat_le, UInt8.lt_iff_toNat_lt] at *
  omega

theorem expectsContinuation_of_opening {byte : UInt8} {sequence : OpenSequence}
    (opened : opening byte = .incomplete sequence) : sequence.ExpectsContinuation := by
  unfold opening at opened
  repeat' split at opened
  all_goals simp only [Opening.incomplete.injEq, reduceCtorEq] at opened
  all_goals subst opened; simp [OpenSequence.ExpectsContinuation]

theorem OpenSequence.expectsContinuation_extend (sequence : OpenSequence) (byte : UInt8) :
    (sequence.extend byte).ExpectsContinuation := by
  simp [extend, ExpectsContinuation]

/-- An ASCII byte cuts the pieces where it cuts the bytes, whatever is open before it. -/
theorem piecesFrom_append_ascii (front back : List UInt8) {separator : UInt8}
    (ascii : separator < 0x80) (state : Option OpenSequence)
    (expects : ∀ sequence ∈ state, sequence.ExpectsContinuation) :
    piecesFrom state (front ++ separator :: back) =
      piecesFrom state front ++
        .scalar (Char.ofNat separator.toNat) :: piecesFrom none back := by
  induction front generalizing state with
  | nil =>
    cases state with
    | none => simp [piecesFrom, opening_ascii ascii]
    | some sequence =>
      have rejected := OpenSequence.not_accepts_ascii (expects sequence rfl) ascii
      simp [piecesFrom, opening_ascii ascii, rejected]
  | cons byte front inductionHypothesis =>
    have fresh := inductionHypothesis none (by simp)
    have afterOpening : ∀ sequence, opening byte = .incomplete sequence →
        piecesFrom (some sequence) (front ++ separator :: back) =
          piecesFrom (some sequence) front ++
            .scalar (Char.ofNat separator.toNat) :: piecesFrom none back := by
      intro sequence opened
      apply inductionHypothesis
      intro other other_mem
      cases other_mem
      exact expectsContinuation_of_opening opened
    cases state with
    | none =>
      simp only [List.cons_append, piecesFrom]
      split
      · simp [fresh]
      · rename_i sequence opened
        exact afterOpening sequence opened
    | some sequence =>
      simp only [List.cons_append, piecesFrom]
      split
      · split
        · simp [fresh]
        · apply inductionHypothesis
          intro other other_mem
          cases other_mem
          exact OpenSequence.expectsContinuation_extend sequence byte
      · split
        · simp [fresh]
        · rename_i opened
          simp [afterOpening _ opened]

/-- An ASCII separator cuts the text of a byte list where it cuts the bytes. -/
theorem pieces_append_ascii (front back : List UInt8) {separator : UInt8}
    (ascii : separator < 0x80) :
    pieces (front ++ separator :: back) =
      pieces front ++ .scalar (Char.ofNat separator.toNat) :: pieces back :=
  piecesFrom_append_ascii front back ascii none (by simp)

end Utf8

end Thumbnails
