import Thumbnails.Digest.Sha256
import Thumbnails.Proofs.Key.Order

/-!
# Texts and digits as bytes

The bytes of a text decide it, and an ASCII byte stands for an ASCII character wherever it occurs.
So a text can be cut where its bytes hold a zero (`Utf8.exists_eq_append_of_encode_eq`). The digits
of a digest decide it as well.
-/

namespace Thumbnails

namespace Utf8

theorem encode_append (front back : List Char) :
    encode (front ++ back) = encode front ++ encode back :=
  List.flatMap_append

theorem encode_injective : Function.Injective encode := by
  intro left right same
  have texts : String.ofList left = String.ofList right := by
    apply bytesOf_injective
    simpa [bytesOf] using same
  exact String.ofList_injective texts

/-- Only an ASCII character has an ASCII byte, and it has no other byte. -/
theorem utf8EncodeChar_of_ascii_mem {character : Char} {byte : UInt8} (ascii : byte < 0x80)
    (byteMem : byte ∈ String.utf8EncodeChar character) :
    character.toNat = byte.toNat ∧ String.utf8EncodeChar character = [byte] := by
  have bound : byte.toNat < 128 := UInt8.lt_iff_toNat_lt.mp ascii
  have large : ∀ value, 128 ≤ value → value < 256 → byte ≠ UInt8.ofNat value := by
    rintro value lower upper rfl
    rw [UInt8.toNat_ofNat'] at bound
    omega
  simp only [String.utf8EncodeChar] at byteMem ⊢
  split at byteMem
  · rename_i small
    obtain rfl := List.mem_singleton.mp byteMem
    rw [if_pos small]
    refine ⟨?_, rfl⟩
    rw [UInt8.toNat_ofNat', Nat.mod_eq_of_lt (by omega)]
    rfl
  · exfalso
    split at byteMem
    · simp only [List.mem_cons, List.not_mem_nil, or_false] at byteMem
      rcases byteMem with same | same
      all_goals exact large _ (by omega) (by omega) same
    · split at byteMem
      · simp only [List.mem_cons, List.not_mem_nil, or_false] at byteMem
        rcases byteMem with same | same | same
        all_goals exact large _ (by omega) (by omega) same
      · simp only [List.mem_cons, List.not_mem_nil, or_false] at byteMem
        rcases byteMem with same | same | same | same
        all_goals exact large _ (by omega) (by omega) same

theorem character_of_ascii_mem_encode {text : List Char} {byte : UInt8} (ascii : byte < 0x80)
    (byteMem : byte ∈ encode text) : ∃ character ∈ text, character.toNat = byte.toNat := by
  rcases List.mem_flatMap.mp byteMem with ⟨character, characterMem, inCharacter⟩
  exact ⟨character, characterMem, (utf8EncodeChar_of_ascii_mem ascii inCharacter).1⟩

/-- A text whose bytes hold a zero holds a zero character there. -/
theorem exists_eq_append_of_encode_eq {text : List Char} {front back : List UInt8}
    (cut : encode text = front ++ 0 :: back) :
    ∃ before after, text = before ++ '\x00' :: after ∧ encode after = back := by
  induction text generalizing front with
  | nil => simp [encode] at cut
  | cons character text inductionHypothesis =>
    rw [encode, List.flatMap_cons, ← encode] at cut
    rcases List.append_eq_append_iff.mp cut with
      ⟨rest, frontEq, textEq⟩ | ⟨rest, characterEq, backEq⟩
    · rcases inductionHypothesis textEq with ⟨before, after, rfl, afterEq⟩
      exact ⟨character :: before, after, rfl, afterEq⟩
    · -- The character may end where the zero stands, and then the zero is a later one.
      cases rest with
      | nil =>
        rw [← List.nil_append (0 :: back)] at backEq
        rcases inductionHypothesis backEq.symm with ⟨before, after, rfl, afterEq⟩
        exact ⟨character :: before, after, rfl, afterEq⟩
      | cons byte rest =>
        have zero : byte = 0 := by simpa using (List.cons.inj backEq).1.symm
        subst zero
        have zeroMem : 0 ∈ String.utf8EncodeChar character := by simp [characterEq]
        rcases utf8EncodeChar_of_ascii_mem (by decide) zeroMem with ⟨number, whole⟩
        obtain rfl : character = '\x00' := Char.toNat_inj.mp number
        have ends : rest = [] := by
          have lengths := congrArg List.length (whole.symm.trans characterEq)
          simp only [List.length_cons, List.length_append, List.length_nil] at lengths
          exact List.length_eq_zero_iff.mp (by omega)
        exact ⟨[], text, rfl, by simpa [ends] using backEq.symm⟩

end Utf8

/-- Numbers that agree below some place and at this place agree below the next one. -/
theorem mod_mul_congr {left right base radix : Nat} (below : left % base = right % base)
    (place : left / base % radix = right / base % radix) :
    left % (base * radix) = right % (base * radix) := by
  rw [Nat.mod_mul, Nat.mod_mul, below, place]

namespace Hex

theorem digit_injective {left right : Nat} (same : digit left = digit right) :
    left % 16 = right % 16 := by
  have reduced : ∀ number, digit number = digit (number % 16) := by simp [digit]
  have small : ∀ first < 16, ∀ second < 16, digit first = digit second → first = second := by
    decide
  rw [reduced left, reduced right] at same
  exact small _ (Nat.mod_lt _ (by omega)) _ (Nat.mod_lt _ (by omega)) same

theorem word_injective : Function.Injective word := by
  intro left right same
  apply UInt32.toNat_inj.mp
  simp only [word, List.map_cons, List.map_nil, List.cons.injEq, and_true,
    Nat.shiftRight_eq_div_pow, Nat.pow_zero, Nat.div_one] at same
  rcases same with ⟨s7, s6, s5, s4, s3, s2, s1, s0⟩
  have two := mod_mul_congr (digit_injective s0) (digit_injective s1)
  have three := mod_mul_congr two (digit_injective s2)
  have four := mod_mul_congr three (digit_injective s3)
  have five := mod_mul_congr four (digit_injective s4)
  have six := mod_mul_congr five (digit_injective s5)
  have seven := mod_mul_congr six (digit_injective s6)
  have eight := mod_mul_congr seven (digit_injective s7)
  exact ((Nat.mod_eq_of_lt left.toNat_lt).symm.trans eight).trans (Nat.mod_eq_of_lt right.toNat_lt)

/-- Words are told apart by their digits, however many of them follow each other. -/
theorem flatMap_word_injective {left right : List UInt32}
    (same : left.flatMap word = right.flatMap word) : left = right := by
  induction left generalizing right with
  | nil =>
    cases right with
    | nil => rfl
    | cons value right => simp [word] at same
  | cons first left inductionHypothesis =>
    cases right with
    | nil => simp [word] at same
    | cons value right =>
      rcases List.append_inj same rfl with ⟨firstEq, restEq⟩
      rw [word_injective firstEq, inductionHypothesis restEq]

end Hex

theorem Sha256.State.hex_injective : Function.Injective State.hex := by
  rintro ⟨⟩ ⟨⟩ same
  simpa [words] using Hex.flatMap_word_injective same

end Thumbnails
