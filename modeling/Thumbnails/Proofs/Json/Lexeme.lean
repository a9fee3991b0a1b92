import Mathlib.Data.List.Basic
import Thumbnails.Config.JsonText
import Thumbnails.Proofs.Number.Rounding

/-!
# Reading back strings and numbers

A text can be spelled in many ways between the quotes of a string, and all of them are read,
whatever follows. A string is read back because each character is spelled by what is written for it:
by itself, by a short escape, or by its number.
A number ends where its digits end, so it is read back in front of all that can follow a value. It
has no leading zero and no digit that the reader leaves out, and numbers of 64 bits stay far from
the range that the reader refuses.
-/

namespace Thumbnails

theorem Hex.value?_digit (number : Nat) : value? (digit number) = some (number % 16) := by
  have reduced : digit number = digit (number % 16) := by simp [digit]
  have small : ∀ value < 16, value? (digit value) = some value := by decide
  rw [reduced, small _ (Nat.mod_lt _ (by decide))]

namespace Json

open Config

/-- Four hexadecimal digits, and the number that they stand for. -/
inductive HexDigits : List Char → Nat → Prop where
  | mk {first second third fourth : Char} {a b c d : Nat} (firstEq : Hex.value? first = some a)
      (secondEq : Hex.value? second = some b) (thirdEq : Hex.value? third = some c)
      (fourthEq : Hex.value? fourth = some d) :
      HexDigits [first, second, third, fourth] (4096 * a + 256 * b + 16 * c + d)

/-- What stands between the quotes of a string, and the text that it means. -/
inductive Spells : List Char → List Char → Prop where
  | nil : Spells [] []
  | plain {character : Char} {body meant : List Char} (noQuote : character ≠ '"')
      (noBackslash : character ≠ '\\') (noControl : 0x20 ≤ character.toNat)
      (others : Spells body meant) : Spells (character :: body) (character :: meant)
  | short {character first : Char} {body meant : List Char}
      (known : shortEscape? character = some first) (others : Spells body meant) :
      Spells ('\\' :: character :: body) (first :: meant)
  | numbered {digits body meant : List Char} {number : Nat} (isHex : HexDigits digits number)
      (noSurrogate : number < 0xd800 ∨ 0xdfff < number) (others : Spells body meant) :
      Spells ('\\' :: 'u' :: (digits ++ body)) (Char.ofNat number :: meant)
  | paired {digits trailingDigits body meant : List Char} {leading trailing : Nat}
      (isHex : HexDigits digits leading) (isLeading : 0xd800 ≤ leading ∧ leading ≤ 0xdbff)
      (trailingIsHex : HexDigits trailingDigits trailing)
      (isTrailing : 0xdc00 ≤ trailing ∧ trailing ≤ 0xdfff) (others : Spells body meant) :
      Spells ('\\' :: 'u' :: (digits ++ '\\' :: 'u' :: (trailingDigits ++ body)))
        (Char.ofNat (0x10000 + 1024 * (leading - 0xd800) + (trailing - 0xdc00)) :: meant)

variable {body meant digits rest : List Char}

theorem readHex_append {number : Nat} (isHex : HexDigits digits number) (rest : List Char) :
    readHex (digits ++ rest) = .ok (number, rest) := by
  cases isHex with
  | mk firstEq secondEq thirdEq fourthEq =>
      simp only [List.cons_append, List.nil_append, readHex, firstEq, secondEq, thirdEq, fourthEq]

theorem readEscape_short {character first : Char} (known : shortEscape? character = some first)
    (rest : List Char) : readEscape (character :: rest) = .ok (first, rest) := by
  rw [readEscape, known]
  rintro rfl
  cases known

theorem readEscape_numbered {digits : List Char} {number : Nat} (isHex : HexDigits digits number)
    (noSurrogate : number < 0xd800 ∨ 0xdfff < number) (rest : List Char) :
    readEscape ('u' :: (digits ++ rest)) = .ok (Char.ofNat number, rest) := by
  have noTrailing : ¬(0xdc00 ≤ number ∧ number ≤ 0xdfff) := by omega
  have noLeading : ¬(0xd800 ≤ number ∧ number ≤ 0xdbff) := by omega
  rw [readEscape, readNumbered, readHex_append isHex]
  simp only [bind, Except.bind, if_neg noTrailing, if_neg noLeading]
  rfl

theorem readEscape_paired {digits trailingDigits : List Char} {leading trailing : Nat}
    (isHex : HexDigits digits leading) (isLeading : 0xd800 ≤ leading ∧ leading ≤ 0xdbff)
    (trailingIsHex : HexDigits trailingDigits trailing)
    (isTrailing : 0xdc00 ≤ trailing ∧ trailing ≤ 0xdfff) (rest : List Char) :
    readEscape ('u' :: (digits ++ '\\' :: 'u' :: (trailingDigits ++ rest))) =
      .ok (Char.ofNat (0x10000 + 1024 * (leading - 0xd800) + (trailing - 0xdc00)), rest) := by
  have noTrailing : ¬(0xdc00 ≤ leading ∧ leading ≤ 0xdfff) := by omega
  rw [readEscape, readNumbered, readHex_append isHex]
  simp only [bind, Except.bind, if_neg noTrailing, if_pos isLeading, readTrailing,
    readHex_append trailingIsHex, if_pos isTrailing, pure, Except.pure]

theorem readCharacters_of_readEscape {fuel : Nat} {character : Char} {text rest : List Char}
    (escape : readEscape text = .ok (character, rest)) :
    readCharacters (fuel + 1) ('\\' :: text) = (do
      let (others, rest) ← readCharacters fuel rest
      return (character :: others, rest)) := by
  rw [readCharacters, if_neg (by decide), if_pos rfl, escape]
  rfl

theorem readCharacters_append {fuel : Nat} (spells : Spells body meant) (rest : List Char)
    (enough : body.length < fuel) :
    readCharacters fuel (body ++ '"' :: rest) = .ok (meant, rest) := by
  induction spells generalizing fuel with
  | nil =>
      obtain ⟨fuel, rfl⟩ := Nat.exists_eq_add_one_of_ne_zero (Nat.ne_zero_of_lt enough)
      rfl
  | plain noQuote noBackslash noControl others ih =>
      obtain ⟨fuel, rfl⟩ := Nat.exists_eq_add_one_of_ne_zero (Nat.ne_zero_of_lt enough)
      rw [List.cons_append, readCharacters, if_neg noQuote, if_neg noBackslash,
        if_neg (Nat.not_lt.mpr noControl), ih (Nat.lt_of_succ_lt_succ enough)]
      rfl
  | short known others ih =>
      obtain ⟨fuel, rfl⟩ := Nat.exists_eq_add_one_of_ne_zero (Nat.ne_zero_of_lt enough)
      rw [List.length_cons, List.length_cons] at enough
      rw [List.cons_append, List.cons_append,
        readCharacters_of_readEscape (readEscape_short known _), ih (by omega)]
      rfl
  | numbered isHex noSurrogate others ih =>
      obtain ⟨fuel, rfl⟩ := Nat.exists_eq_add_one_of_ne_zero (Nat.ne_zero_of_lt enough)
      rw [List.length_cons, List.length_cons, List.length_append] at enough
      rw [List.cons_append, List.cons_append, List.append_assoc,
        readCharacters_of_readEscape (readEscape_numbered isHex noSurrogate _), ih (by omega)]
      rfl
  | paired isHex isLeading trailingIsHex isTrailing others ih =>
      obtain ⟨fuel, rfl⟩ := Nat.exists_eq_add_one_of_ne_zero (Nat.ne_zero_of_lt enough)
      simp only [List.length_cons, List.length_append] at enough
      rw [List.cons_append, List.cons_append, List.append_assoc, List.cons_append,
        List.cons_append, List.append_assoc, readCharacters_of_readEscape
          (readEscape_paired isHex isLeading trailingIsHex isTrailing _), ih (by omega)]
      rfl

theorem readString_append (spells : Spells body meant) (rest : List Char) :
    readString (body ++ '"' :: rest) = .ok (meant, rest) := by
  apply readCharacters_append spells
  rw [List.length_append]
  omega

/-- A character means itself in the way in which it is written. -/
theorem Spells.jsonCharacter_append (spells : Spells body meant) (character : Char) :
    Spells (jsonCharacter character ++ body) (character :: meant) := by
  unfold jsonCharacter
  split
  · rename_i quote
    subst quote
    exact .short rfl spells
  split
  · rename_i backslash
    subst backslash
    exact .short rfl spells
  iterate 5
    split
    · rename_i short
      subst short
      exact .short rfl spells
  split
  · rename_i control
    have isHex : HexDigits ['0', '0', Hex.digit (character.toNat / 16), Hex.digit character.toNat]
        (4096 * 0 + 256 * 0 + 16 * (character.toNat / 16 % 16) + character.toNat % 16) :=
      .mk rfl rfl (Hex.value?_digit _) (Hex.value?_digit _)
    have numberEq : 4096 * 0 + 256 * 0 + 16 * (character.toNat / 16 % 16) + character.toNat % 16 =
        character.toNat := by omega
    rw [numberEq] at isHex
    have numbered := Spells.numbered isHex (.inl (by omega)) spells
    rwa [Char.ofNat_toNat] at numbered
  · rename_i quote backslash _ _ _ _ _ plain
    exact .plain quote backslash (Nat.not_lt.mp plain) spells

theorem spells_flatMap_jsonCharacter (text : List Char) :
    Spells (text.flatMap jsonCharacter) text := by
  induction text with
  | nil => exact .nil
  | cons character text ih =>
      rw [List.flatMap_cons]
      exact ih.jsonCharacter_append character

/-- A string is read back behind its opening quote. -/
theorem readString_flatMap_jsonCharacter (text rest : List Char) :
    readString (text.flatMap jsonCharacter ++ '"' :: rest) = .ok (text, rest) :=
  readString_append (spells_flatMap_jsonCharacter text) rest

theorem readText_jsonString (text rest : List Char) :
    readText (jsonString text ++ rest) = .ok (text, rest) := by
  rw [jsonString, List.append_assoc, List.cons_append, List.singleton_append]
  exact readString_flatMap_jsonCharacter text rest

/-- What can follow a value: the end of the text, white space, or a mark of the structure around
it. -/
inductive Ends : List Char → Prop where
  | nil : Ends []
  | cons {character : Char} (rest : List Char)
      (mark : isSpace character = true ∨ character ∈ [',', ']', '\x7d']) : Ends (character :: rest)

/-- What follows a value inside a structure that is written without white space. -/
inductive Closes : List Char → Prop where
  | comma (rest : List Char) : Closes (',' :: rest)
  | bracket (rest : List Char) : Closes ('\x7d' :: rest)

theorem Closes.ends {rest : List Char} (closes : Closes rest) : Ends rest := by
  cases closes with
  | comma rest => exact .cons rest (.inr (by simp))
  | bracket rest => exact .cons rest (.inr (by simp))

theorem isSpace_iff (character : Char) :
    isSpace character = true ↔ character ∈ [' ', '\t', '\n', '\r'] := by
  simp [isSpace, or_assoc]

/-- Nothing that follows a value goes on with a number. -/
theorem Ends.cases_on_mark {rest : List Char} (ends : Ends rest) : rest = [] ∨
    ∃ character others, rest = character :: others ∧
      character ∈ [' ', '\t', '\n', '\r', ',', ']', '\x7d'] := by
  cases ends with
  | nil => exact .inl rfl
  | cons others mark =>
    refine .inr ⟨_, others, rfl, ?_⟩
    rcases mark with space | mark
    · exact List.mem_append_left _ ((isSpace_iff _).mp space)
    · exact List.mem_append_right [' ', '\t', '\n', '\r'] mark

theorem Ends.stops {rest : List Char} (ends : Ends rest) :
    rest.takeWhile isDigit = [] ∧ rest.dropWhile isDigit = rest ∧
      readFraction rest = .ok (none, rest) ∧ readExponent rest = .ok (none, rest) := by
  rcases ends.cases_on_mark with rfl | ⟨character, others, rfl, mark⟩
  · exact ⟨rfl, rfl, rfl, rfl⟩
  · simp only [List.mem_cons, List.not_mem_nil, or_false] at mark
    rcases mark with rfl | rfl | rfl | rfl | rfl | rfl | rfl
    all_goals exact ⟨rfl, rfl, rfl, rfl⟩

theorem isDigit_of_mem_jsonNatural {value : Nat} {digit : Char}
    (digitMem : digit ∈ jsonNatural value) : isDigit digit = true := by
  have digitEq := Nat.isDigit_of_mem_toDigits (by decide) (by decide) digitMem
  simp only [Char.isDigit, Bool.and_eq_true, decide_eq_true_eq] at digitEq
  simp only [isDigit, Bool.and_eq_true, decide_eq_true_eq]
  exact digitEq

/-- Only zero is written with a zero in front. -/
theorem head?_jsonNatural_ne {value : Nat} (positive : value ≠ 0) :
    (jsonNatural value).head? ≠ some '0' := by
  induction value using Nat.strongRecOn with
  | ind value inductionHypothesis =>
    rw [jsonNatural]
    by_cases small : value < 10
    · rw [Nat.toDigits_of_lt_base small]
      have digits : ∀ number < 10, number ≠ 0 → [number.digitChar].head? ≠ some '0' := by decide
      exact digits value small positive
    · rw [Nat.toDigits_of_base_le (by decide) (by omega),
        List.head?_append_of_ne_nil _ Nat.toDigits_ne_nil]
      exact inductionHypothesis (value / 10) (by omega) (by omega)

theorem readWhole_jsonNatural (value : Nat) {rest : List Char} (ends : Ends rest) :
    readWhole (jsonNatural value ++ rest) = .ok (jsonNatural value, rest) := by
  rcases ends.stops with ⟨noDigit, same, _, _⟩
  have digits : readDigits (jsonNatural value ++ rest) = .ok (jsonNatural value, rest) := by
    unfold readDigits
    rw [List.takeWhile_append_of_pos fun _ => isDigit_of_mem_jsonNatural,
      List.dropWhile_append_of_pos fun _ => isDigit_of_mem_jsonNatural, noDigit, same,
      List.append_nil]
    split
    · rename_i empty
      exact absurd empty Nat.toDigits_ne_nil
    · rfl
  have noLeadingZero :
      ¬((jsonNatural value).head? = some '0' ∧ (jsonNatural value).length > 1) := by
    rintro ⟨leadingZero, long⟩
    by_cases zero : value = 0
    · subst zero
      exact absurd long (by decide)
    · exact head?_jsonNatural_ne zero leadingZero
  rw [readWhole, digits]
  simp only [bind, Except.bind, if_neg noLeadingZero, pure, Except.pure]

theorem digitsValue_jsonNatural (value : Nat) : digitsValue (jsonNatural value) = value :=
  Nat.ofDigitChars_ten_toDigits

theorem le_foldl_digits (significand : Nat) (digits : List Char) :
    significand ≤
      digits.foldl (fun value digit => 10 * value + (digit.toNat - 48)) significand := by
  induction digits generalizing significand with
  | nil => exact Nat.le_refl _
  | cons digit digits inductionHypothesis =>
    have later := inductionHypothesis (10 * significand + (digit.toNat - 48))
    rw [List.foldl_cons]
    omega

/-- No digit is left out as long as the whole number fits. -/
theorem collectDigits_of_lt {significand : Nat} {digits : List Char}
    (fits : digits.foldl (fun value digit => 10 * value + (digit.toNat - 48)) significand <
      UInt64.size) :
    collectDigits significand digits =
      (digits.foldl (fun value digit => 10 * value + (digit.toNat - 48)) significand, 0) := by
  induction digits generalizing significand with
  | nil => rfl
  | cons digit digits inductionHypothesis =>
    rw [List.foldl_cons] at fits ⊢
    have longerFits := Nat.lt_of_le_of_lt (le_foldl_digits _ digits) fits
    rw [collectDigits]
    simp only [if_pos longerFits]
    exact inductionHypothesis fits

end Json

namespace Json

open Config

theorem exceedsBinary64_of_lt {value : Nat} (fits : value < UInt64.size) :
    exceedsBinary64 value 0 = false := by
  unfold exceedsBinary64
  by_cases zero : value = 0
  · rw [if_pos (.inl zero)]
  · have below : Rounding.nearest value 1 * Rounding.nearest (Nat.pow 10 0) 1 <
        Rounding.overflow := by
      have one : Rounding.nearest (Nat.pow 10 0) 1 = 1 := by decide
      have close := (Rounding.nearest_close value Nat.one_pos).1
      have far : 2 * UInt64.size < Rounding.overflow := by decide +kernel
      rw [Rounding.leastSignificand_eq] at close
      rw [one]
      omega
    rw [if_neg (by omega), if_neg (by decide)]
    exact decide_eq_false (Nat.not_le.mpr below)

theorem isOutOfRange_jsonNatural {value : Nat} (fits : value < UInt64.size) :
    isOutOfRange (jsonNatural value) [] 0 = false := by
  have collected : collectDigits 0 (jsonNatural value) = (value, 0) := by
    have valueEq := digitsValue_jsonNatural value
    rw [digitsValue] at valueEq
    rw [collectDigits_of_lt (by rw [valueEq]; exact fits), valueEq]
  rw [isOutOfRange, collected]
  exact exceedsBinary64_of_lt fits

theorem exists_jsonNatural_eq_cons (value : Nat) :
    ∃ digit digits, jsonNatural value = digit :: digits ∧ isDigit digit = true := by
  have nonempty : jsonNatural value ≠ [] := Nat.toDigits_ne_nil
  rcases List.exists_cons_of_ne_nil nonempty with ⟨digit, digits, valueEq⟩
  have digitMem : digit ∈ jsonNatural value := by
    rw [valueEq]
    exact List.mem_cons_self
  exact ⟨digit, digits, valueEq, isDigit_of_mem_jsonNatural digitMem⟩

theorem readNumber_jsonNatural {value : Nat} {rest : List Char} (fits : value < UInt64.size)
    (ends : Ends rest) :
    readNumber (jsonNatural value ++ rest) = .ok (.natural value, rest) := by
  rcases ends.stops with ⟨_, _, noFraction, noExponent⟩
  unfold readNumber
  split
  rename_i negative unsigned signEq
  split at signEq
  · -- No digit is a sign.
    rename_i other signed
    rcases exists_jsonNatural_eq_cons value with ⟨digit, digits, valueEq, digitIs⟩
    rw [valueEq] at signed
    cases signed
    exact absurd digitIs (by decide)
  · cases signEq
    simp only [readWhole_jsonNatural value ends, noFraction, noExponent, bind, Except.bind,
      Option.getD_none, isOutOfRange_jsonNatural fits, digitsValue_jsonNatural]
    rfl

/-- A number is read back if it fits, whatever can follow it. -/
theorem readNatural_jsonNatural {limit value : Nat} {rest : List Char}
    (limitFits : limit < UInt64.size) (valueLe : value ≤ limit) (ends : Ends rest) :
    readNatural limit (jsonNatural value ++ rest) = .ok (value, rest) := by
  have number := readNumber_jsonNatural (Nat.lt_of_le_of_lt valueLe limitFits) ends
  rcases exists_jsonNatural_eq_cons value with ⟨digit, digits, valueEq, digitIs⟩
  rw [valueEq, List.cons_append] at number ⊢
  have noSpace : skipSpace (digit :: (digits ++ rest)) = digit :: (digits ++ rest) := by
    rw [skipSpace, List.dropWhile_cons_of_neg]
    intro space
    simp only [isSpace, Bool.or_eq_true, decide_eq_true_eq] at space
    rcases space with ((rfl | rfl) | rfl) | rfl
    all_goals exact absurd digitIs (by decide)
  unfold readNatural
  rw [noSpace]
  simp only [digitIs, Bool.or_true, if_true, number, bind, Except.bind, if_pos valueLe]
  rfl

end Json

end Thumbnails
