import Thumbnails.Text.Utf8

/-!
# Reading a text back from its bytes

The bytes of a character are one lead byte and up to three continuations. The lead byte opens a
sequence of just this length, each continuation adds six bits, and the ranges that exclude overlong
forms and surrogates exclude nothing that a character needs. So a scan finds the characters of a
text again and nothing else (`Utf8.decode?_encode`). The ranges let nothing else through either, so
no other bytes are read as this text (`Utf8.decode?_eq_some_iff`).
-/

namespace Thumbnails

namespace Utf8

theorem not_lt_of_toNat_le {bound byte : UInt8} (lower : bound.toNat ≤ byte.toNat) :
    ¬byte < bound :=
  UInt8.not_lt.mpr (UInt8.le_iff_toNat_le.mpr lower)

theorem opening_two {byte : UInt8} (lower : 0xc2 ≤ byte.toNat) (upper : byte.toNat < 0xe0) :
    opening byte = .incomplete ⟨[byte], byte.toNat - 0xc0, 1, 0x80, 0xbf⟩ := by
  have large : ∀ bound : UInt8, bound.toNat ≤ 0xc2 → ¬byte < bound := fun bound boundLe =>
    not_lt_of_toNat_le (Nat.le_trans boundLe lower)
  have two : byte < 0xe0 := UInt8.lt_iff_toNat_lt.mpr upper
  simp only [opening, if_neg (large 0x80 (by decide)), if_neg (large 0xc2 (by decide)), if_pos two]

theorem opening_three {byte : UInt8} (lower : 0xe0 ≤ byte.toNat) (upper : byte.toNat < 0xf0) :
    opening byte = .incomplete
      ⟨[byte], byte.toNat - 0xe0, 2, if byte = 0xe0 then 0xa0 else 0x80,
        if byte = 0xed then 0x9f else 0xbf⟩ := by
  have large : ∀ bound : UInt8, bound.toNat ≤ 0xe0 → ¬byte < bound := fun bound boundLe =>
    not_lt_of_toNat_le (Nat.le_trans boundLe lower)
  have three : byte < 0xf0 := UInt8.lt_iff_toNat_lt.mpr upper
  by_cases lowest : byte = 0xe0
  · subst lowest; rfl
  by_cases surrogates : byte = 0xed
  · subst surrogates; rfl
  simp only [opening, if_neg (large 0x80 (by decide)), if_neg (large 0xc2 (by decide)),
    if_neg (large 0xe0 (by decide)), if_neg lowest, if_neg surrogates, if_pos three]

theorem opening_four {byte : UInt8} (lower : 0xf0 ≤ byte.toNat) (upper : byte.toNat < 0xf5) :
    opening byte = .incomplete
      ⟨[byte], byte.toNat - 0xf0, 3, if byte = 0xf0 then 0x90 else 0x80,
        if byte = 0xf4 then 0x8f else 0xbf⟩ := by
  have large : ∀ bound : UInt8, bound.toNat ≤ 0xf0 → ¬byte < bound := fun bound boundLe =>
    not_lt_of_toNat_le (Nat.le_trans boundLe lower)
  by_cases lowest : byte = 0xf0
  · subst lowest; rfl
  by_cases highest : byte = 0xf4
  · subst highest; rfl
  have four : byte < 0xf4 := by
    have distinct : byte.toNat ≠ 0xf4 := fun same => highest (UInt8.toNat_inj.mp same)
    exact UInt8.lt_iff_toNat_lt.mpr (by simp only [UInt8.reduceToNat]; omega)
  have notSurrogates : byte ≠ 0xed := by rintro rfl; simp at lower
  have notThree : byte ≠ 0xe0 := by rintro rfl; simp at lower
  simp only [opening, if_neg (large 0x80 (by decide)), if_neg (large 0xc2 (by decide)),
    if_neg (large 0xe0 (by decide)), if_neg notThree, if_neg notSurrogates,
    if_neg (large 0xf0 (by decide)), if_neg lowest, if_neg highest, if_pos four]

/-- The byte that carries six more bits of a character. -/
def continuation (payload : Nat) : UInt8 :=
  UInt8.ofNat (payload % 64 + 0x80)

theorem toNat_continuation (payload : Nat) :
    (continuation payload).toNat = payload % 64 + 0x80 := by
  rw [continuation, UInt8.toNat_ofNat', Nat.mod_eq_of_lt (by omega)]

theorem OpenSequence.accepts_continuation {sequence : OpenSequence} {payload : Nat}
    (lower : sequence.lowest.toNat ≤ payload % 64 + 0x80)
    (upper : payload % 64 + 0x80 ≤ sequence.highest.toNat) :
    sequence.accepts (continuation payload) = true := by
  simp only [accepts, Bool.and_eq_true, decide_eq_true_eq, UInt8.le_iff_toNat_le,
    toNat_continuation]
  exact ⟨lower, upper⟩

theorem OpenSequence.extend_continuation (sequence : OpenSequence) (payload : Nat) :
    sequence.extend (continuation payload) =
      ⟨sequence.bytes ++ [continuation payload], sequence.value * 64 + payload % 64,
        sequence.missing - 1, 0x80, 0xbf⟩ := by
  simp only [extend, toNat_continuation, Nat.add_sub_cancel]

/-- The range of a second byte may begin later, for one lead byte. -/
theorem lower_of_narrowed {lead narrowing lowest : UInt8} {payload : Nat}
    (narrowed : lead = narrowing → lowest.toNat ≤ payload % 64 + 0x80) :
    (if lead = narrowing then lowest else 0x80).toNat ≤ payload % 64 + 0x80 := by
  split
  · rename_i same
    exact narrowed same
  · exact Nat.le_add_left _ _

/-- The range of a second byte may end earlier, for one lead byte. -/
theorem upper_of_narrowed {lead narrowing highest : UInt8} {payload : Nat}
    (narrowed : lead = narrowing → payload % 64 + 0x80 ≤ highest.toNat) :
    payload % 64 + 0x80 ≤ (if lead = narrowing then highest else 0xbf).toNat := by
  split
  · rename_i same
    exact narrowed same
  · simp only [UInt8.reduceToNat]
    omega

theorem piecesFrom_last {sequence : OpenSequence} {payload : Nat} {rest : List UInt8}
    (lower : sequence.lowest.toNat ≤ payload % 64 + 0x80)
    (upper : payload % 64 + 0x80 ≤ sequence.highest.toNat) (last : sequence.missing = 1) :
    piecesFrom (some sequence) (continuation payload :: rest) =
      .scalar (Char.ofNat (sequence.value * 64 + payload % 64)) :: piecesFrom none rest := by
  rw [piecesFrom, if_pos (OpenSequence.accepts_continuation lower upper)]
  simp only [OpenSequence.extend_continuation, last, Nat.sub_self, if_true]

theorem piecesFrom_more {sequence : OpenSequence} {payload : Nat} {rest : List UInt8}
    (lower : sequence.lowest.toNat ≤ payload % 64 + 0x80)
    (upper : payload % 64 + 0x80 ≤ sequence.highest.toNat) (more : 1 < sequence.missing) :
    piecesFrom (some sequence) (continuation payload :: rest) =
      piecesFrom (some (sequence.extend (continuation payload))) rest := by
  rw [piecesFrom, if_pos (OpenSequence.accepts_continuation lower upper)]
  have incomplete : (sequence.extend (continuation payload)).missing ≠ 0 := by
    simp only [OpenSequence.extend_continuation]
    omega
  simp only [if_neg incomplete]

theorem piecesFrom_one {number : Nat} (rest : List UInt8) (small : number ≤ 0x7f) :
    piecesFrom none (UInt8.ofNat number :: rest) =
      .scalar (Char.ofNat number) :: piecesFrom none rest := by
  have byteEq : (UInt8.ofNat number).toNat = number := by
    rw [UInt8.toNat_ofNat', Nat.mod_eq_of_lt (by omega)]
  have ascii : UInt8.ofNat number < 0x80 :=
    UInt8.lt_iff_toNat_lt.mpr (by rw [byteEq]; exact Nat.lt_succ_of_le small)
  simp only [piecesFrom, opening_ascii ascii, byteEq]

theorem piecesFrom_two {number : Nat} (rest : List UInt8) (lower : 0x7f < number)
    (upper : number ≤ 0x7ff) :
    piecesFrom none (UInt8.ofNat (number / 64 % 32 + 0xc0) :: continuation number :: rest) =
      .scalar (Char.ofNat number) :: piecesFrom none rest := by
  have leadEq : (UInt8.ofNat (number / 64 % 32 + 0xc0)).toNat = number / 64 + 0xc0 := by
    rw [UInt8.toNat_ofNat', Nat.mod_eq_of_lt (by omega), Nat.mod_eq_of_lt (by omega)]
  generalize UInt8.ofNat (number / 64 % 32 + 0xc0) = lead at *
  rw [piecesFrom, opening_two (by omega) (by omega)]
  dsimp only
  rw [piecesFrom_last (by simp) (by simp; omega) rfl]
  have valueEq : (lead.toNat - 0xc0) * 64 + number % 64 = number := by omega
  rw [valueEq]

/-- The number is no surrogate, so its second byte is in the range that its first one leaves. -/
theorem piecesFrom_three {number : Nat} (rest : List UInt8) (lower : 0x7ff < number)
    (upper : number ≤ 0xffff) (valid : number < 0xd800 ∨ 0xdfff < number) :
    piecesFrom none (UInt8.ofNat (number / 4096 % 16 + 0xe0) :: continuation (number / 64) ::
        continuation number :: rest) =
      .scalar (Char.ofNat number) :: piecesFrom none rest := by
  have leadEq : (UInt8.ofNat (number / 4096 % 16 + 0xe0)).toNat = number / 4096 + 0xe0 := by
    rw [UInt8.toNat_ofNat', Nat.mod_eq_of_lt (by omega), Nat.mod_eq_of_lt (by omega)]
  generalize UInt8.ofNat (number / 4096 % 16 + 0xe0) = lead at *
  have secondLower : lead = 0xe0 → (0xa0 : UInt8).toNat ≤ number / 64 % 64 + 0x80 := by
    rintro rfl
    simp only [UInt8.reduceToNat] at leadEq ⊢
    omega
  have secondUpper : lead = 0xed → number / 64 % 64 + 0x80 ≤ (0x9f : UInt8).toNat := by
    rintro rfl
    simp only [UInt8.reduceToNat] at leadEq ⊢
    omega
  rw [piecesFrom, opening_three (by omega) (by omega)]
  dsimp only
  rw [piecesFrom_more (lower_of_narrowed secondLower) (upper_of_narrowed secondUpper) (by simp),
    OpenSequence.extend_continuation,
    piecesFrom_last (by simp) (by simp; omega) rfl]
  have valueEq : ((lead.toNat - 0xe0) * 64 + number / 64 % 64) * 64 + number % 64 = number := by
    omega
  rw [valueEq]

theorem piecesFrom_four {number : Nat} (rest : List UInt8) (lower : 0xffff < number)
    (upper : number < 0x110000) :
    piecesFrom none (UInt8.ofNat (number / 262144 % 8 + 0xf0) :: continuation (number / 4096) ::
        continuation (number / 64) :: continuation number :: rest) =
      .scalar (Char.ofNat number) :: piecesFrom none rest := by
  have leadEq : (UInt8.ofNat (number / 262144 % 8 + 0xf0)).toNat = number / 262144 + 0xf0 := by
    rw [UInt8.toNat_ofNat', Nat.mod_eq_of_lt (by omega), Nat.mod_eq_of_lt (by omega)]
  generalize UInt8.ofNat (number / 262144 % 8 + 0xf0) = lead at *
  have secondLower : lead = 0xf0 → (0x90 : UInt8).toNat ≤ number / 4096 % 64 + 0x80 := by
    rintro rfl
    simp only [UInt8.reduceToNat] at leadEq ⊢
    omega
  have secondUpper : lead = 0xf4 → number / 4096 % 64 + 0x80 ≤ (0x8f : UInt8).toNat := by
    rintro rfl
    simp only [UInt8.reduceToNat] at leadEq ⊢
    omega
  rw [piecesFrom, opening_four (by omega) (by omega)]
  dsimp only
  rw [piecesFrom_more (lower_of_narrowed secondLower) (upper_of_narrowed secondUpper) (by simp),
    OpenSequence.extend_continuation,
    piecesFrom_more (by simp) (by simp; omega) (by simp), OpenSequence.extend_continuation,
    piecesFrom_last (by simp) (by simp; omega) rfl]
  have valueEq : (((lead.toNat - 0xf0) * 64 + number / 4096 % 64) * 64 + number / 64 % 64) * 64 +
      number % 64 = number := by
    omega
  rw [valueEq]

/-- The bytes of a character are read as this character. -/
theorem piecesFrom_utf8EncodeChar (character : Char) (rest : List UInt8) :
    piecesFrom none (String.utf8EncodeChar character ++ rest) =
      .scalar character :: piecesFrom none rest := by
  have valid : character.val.toNat < 0xd800 ∨
      0xdfff < character.val.toNat ∧ character.val.toNat < 0x110000 := character.valid
  have whole : Piece.scalar (Char.ofNat character.val.toNat) :: piecesFrom none rest =
      .scalar character :: piecesFrom none rest := by
    rw [show Char.ofNat character.val.toNat = character from Char.ofNat_toNat character]
  rw [← whole, String.utf8EncodeChar]
  generalize character.val.toNat = number at valid ⊢
  split
  · rename_i small
    exact piecesFrom_one rest small
  split
  · rename_i one two
    exact piecesFrom_two rest (by omega) two
  split
  · rename_i one two three
    exact piecesFrom_three rest (by omega) three (by omega)
  · rename_i one two three
    exact piecesFrom_four rest (by omega) (by omega)

/-- A text is read back from its bytes. -/
theorem decode?_encode (text : List Char) : decode? (encode text) = some text := by
  have piecesEq : pieces (encode text) = text.map .scalar := by
    rw [pieces, encode]
    induction text with
    | nil => rfl
    | cons character text inductionHypothesis =>
      rw [List.flatMap_cons, piecesFrom_utf8EncodeChar, inductionHypothesis, List.map_cons]
  rw [decode?, piecesEq, List.mapM_map]
  exact List.mapM_pure.trans (congrArg some (List.map_id' text))

theorem toNat_ofNat_of_valid {number : Nat}
    (valid : number < 0xd800 ∨ 0xdfff < number ∧ number < 0x110000) :
    (Char.ofNat number).val.toNat = number := by
  have isValid : number.isValidChar := valid
  rw [Char.ofNat, dif_pos isValid]
  rfl

theorem ofNat_eq_of_toNat_eq {byte : UInt8} {number : Nat} (same : byte.toNat = number) :
    UInt8.ofNat number = byte := by
  rw [← same, UInt8.ofNat_toNat]

section

variable {number : Nat} {lead second third fourth : UInt8}

theorem utf8EncodeChar_one (small : lead.toNat ≤ 0x7f) :
    String.utf8EncodeChar (Char.ofNat lead.toNat) = [lead] := by
  have numberEq : (Char.ofNat lead.toNat).val.toNat = lead.toNat := toNat_ofNat_of_valid (by omega)
  rw [String.utf8EncodeChar]
  simp only [numberEq]
  rw [if_pos (by omega), UInt8.ofNat_toNat]

theorem utf8EncodeChar_two (lower : 0x7f < number) (upper : number ≤ 0x7ff)
    (leadEq : lead.toNat = number / 64 % 32 + 0xc0) (secondEq : second.toNat = number % 64 + 0x80) :
    String.utf8EncodeChar (Char.ofNat number) = [lead, second] := by
  have numberEq : (Char.ofNat number).val.toNat = number := toNat_ofNat_of_valid (by omega)
  rw [String.utf8EncodeChar]
  simp only [numberEq]
  rw [if_neg (by omega), if_pos upper, ofNat_eq_of_toNat_eq leadEq,
    ofNat_eq_of_toNat_eq secondEq]

theorem utf8EncodeChar_three (lower : 0x7ff < number) (upper : number ≤ 0xffff)
    (valid : number < 0xd800 ∨ 0xdfff < number) (leadEq : lead.toNat = number / 4096 % 16 + 0xe0)
    (secondEq : second.toNat = number / 64 % 64 + 0x80)
    (thirdEq : third.toNat = number % 64 + 0x80) :
    String.utf8EncodeChar (Char.ofNat number) = [lead, second, third] := by
  have numberEq : (Char.ofNat number).val.toNat = number := toNat_ofNat_of_valid (by omega)
  rw [String.utf8EncodeChar]
  simp only [numberEq]
  rw [if_neg (by omega), if_neg (by omega), if_pos upper, ofNat_eq_of_toNat_eq leadEq,
    ofNat_eq_of_toNat_eq secondEq, ofNat_eq_of_toNat_eq thirdEq]

theorem utf8EncodeChar_four (lower : 0xffff < number) (upper : number < 0x110000)
    (leadEq : lead.toNat = number / 262144 % 8 + 0xf0)
    (secondEq : second.toNat = number / 4096 % 64 + 0x80)
    (thirdEq : third.toNat = number / 64 % 64 + 0x80)
    (fourthEq : fourth.toNat = number % 64 + 0x80) :
    String.utf8EncodeChar (Char.ofNat number) = [lead, second, third, fourth] := by
  have numberEq : (Char.ofNat number).val.toNat = number := toNat_ofNat_of_valid (by omega)
  rw [String.utf8EncodeChar]
  simp only [numberEq]
  rw [if_neg (by omega), if_neg (by omega), if_neg (by omega), ofNat_eq_of_toNat_eq leadEq,
    ofNat_eq_of_toNat_eq secondEq, ofNat_eq_of_toNat_eq thirdEq, ofNat_eq_of_toNat_eq fourthEq]

end

/-- Whatever an open sequence takes up until nothing is missing, its bytes are those of its
character. -/
def OpenSequence.Spells : OpenSequence → Nat → Prop
  | sequence, 0 => String.utf8EncodeChar (Char.ofNat sequence.value) = sequence.bytes
  | sequence, missing + 1 =>
    ∀ byte, sequence.accepts byte = true → (sequence.extend byte).Spells missing

theorem OpenSequence.bounds_of_accepts {sequence : OpenSequence} {byte : UInt8}
    (accepted : sequence.accepts byte = true) :
    sequence.lowest.toNat ≤ byte.toNat ∧ byte.toNat ≤ sequence.highest.toNat := by
  simpa only [accepts, Bool.and_eq_true, decide_eq_true_eq, UInt8.le_iff_toNat_le] using accepted

theorem lead_of_opening {byte : UInt8} {sequence : OpenSequence}
    (opened : opening byte = .incomplete sequence) : 0xc2 ≤ byte.toNat ∧ byte.toNat < 0xf5 := by
  unfold opening at opened
  split at opened
  · cases opened
  split at opened
  · cases opened
  rename_i _ notSingle
  refine ⟨UInt8.le_iff_toNat_le.mp (UInt8.not_lt.mp notSingle), Nat.lt_of_not_le fun large => ?_⟩
  have above : ∀ bound : UInt8, bound.toNat < 0xf5 → ¬byte < bound ∧ byte ≠ bound := by
    intro bound boundLt
    refine ⟨not_lt_of_toNat_le (by omega), ?_⟩
    rintro rfl
    omega
  simp [above] at opened

/-- An open sequence that is the beginning of a character. -/
def OpenSequence.IsSound (sequence : OpenSequence) : Prop :=
  ∃ missing, sequence.missing = missing + 1 ∧ sequence.Spells (missing + 1)

theorem isSound_two {lead : UInt8} (lower : 0xc2 ≤ lead.toNat) (upper : lead.toNat < 0xe0) :
    OpenSequence.IsSound ⟨[lead], lead.toNat - 0xc0, 1, 0x80, 0xbf⟩ := by
  refine ⟨0, rfl, ?_⟩
  intro second accepted
  have bounds := OpenSequence.bounds_of_accepts accepted
  simp only [UInt8.reduceToNat] at bounds
  change String.utf8EncodeChar
    (Char.ofNat ((lead.toNat - 0xc0) * 64 + (second.toNat - 0x80))) = [lead, second]
  exact utf8EncodeChar_two (by omega) (by omega) (by omega) (by omega)

theorem isSound_three {lead lowest highest : UInt8} (lower : 0xe0 ≤ lead.toNat)
    (upper : lead.toNat < 0xf0) (least : 0x80 ≤ lowest.toNat) (greatest : highest.toNat ≤ 0xbf)
    (notOverlong : lead.toNat = 0xe0 → 0xa0 ≤ lowest.toNat)
    (notSurrogate : lead.toNat = 0xed → highest.toNat ≤ 0x9f) :
    OpenSequence.IsSound ⟨[lead], lead.toNat - 0xe0, 2, lowest, highest⟩ := by
  refine ⟨1, rfl, ?_⟩
  intro second secondAccepted third thirdAccepted
  have secondBounds := OpenSequence.bounds_of_accepts secondAccepted
  have thirdBounds := OpenSequence.bounds_of_accepts thirdAccepted
  simp only [OpenSequence.extend, UInt8.reduceToNat] at secondBounds thirdBounds
  change String.utf8EncodeChar (Char.ofNat
    (((lead.toNat - 0xe0) * 64 + (second.toNat - 0x80)) * 64 + (third.toNat - 0x80))) =
      [lead, second, third]
  exact utf8EncodeChar_three (by omega) (by omega) (by omega) (by omega) (by omega) (by omega)

theorem isSound_four {lead lowest highest : UInt8} (lower : 0xf0 ≤ lead.toNat)
    (upper : lead.toNat < 0xf5) (least : 0x80 ≤ lowest.toNat) (greatest : highest.toNat ≤ 0xbf)
    (notOverlong : lead.toNat = 0xf0 → 0x90 ≤ lowest.toNat)
    (inRange : lead.toNat = 0xf4 → highest.toNat ≤ 0x8f) :
    OpenSequence.IsSound ⟨[lead], lead.toNat - 0xf0, 3, lowest, highest⟩ := by
  refine ⟨2, rfl, ?_⟩
  intro second secondAccepted third thirdAccepted fourth fourthAccepted
  have secondBounds := OpenSequence.bounds_of_accepts secondAccepted
  have thirdBounds := OpenSequence.bounds_of_accepts thirdAccepted
  have fourthBounds := OpenSequence.bounds_of_accepts fourthAccepted
  simp only [OpenSequence.extend, UInt8.reduceToNat] at secondBounds thirdBounds fourthBounds
  change String.utf8EncodeChar (Char.ofNat
    ((((lead.toNat - 0xf0) * 64 + (second.toNat - 0x80)) * 64 + (third.toNat - 0x80)) * 64 +
      (fourth.toNat - 0x80))) = [lead, second, third, fourth]
  exact utf8EncodeChar_four (by omega) (by omega) (by omega) (by omega) (by omega) (by omega)

theorem isSound_of_opening {byte : UInt8} {sequence : OpenSequence}
    (opened : opening byte = .incomplete sequence) : sequence.IsSound := by
  rcases lead_of_opening opened with ⟨lower, upper⟩
  by_cases two : byte.toNat < 0xe0
  · rw [opening_two lower two] at opened
    cases opened
    exact isSound_two lower two
  by_cases three : byte.toNat < 0xf0
  · rw [opening_three (by omega) three] at opened
    cases opened
    refine isSound_three (by omega) three ?_ ?_ ?_ ?_
    · split <;> decide
    · split <;> decide
    · intro same
      rw [if_pos (UInt8.toNat_inj.mp same)]
      decide
    · intro same
      rw [if_pos (UInt8.toNat_inj.mp same)]
      decide
  · rw [opening_four (by omega) upper] at opened
    cases opened
    refine isSound_four (by omega) upper ?_ ?_ ?_ ?_
    · split <;> decide
    · split <;> decide
    · intro same
      rw [if_pos (UInt8.toNat_inj.mp same)]
      decide
    · intro same
      rw [if_pos (UInt8.toNat_inj.mp same)]
      decide

theorem bytes_of_opening {byte : UInt8} {sequence : OpenSequence}
    (opened : opening byte = .incomplete sequence) : sequence.bytes = [byte] := by
  unfold opening at opened
  repeat' split at opened
  all_goals simp only [Opening.incomplete.injEq, reduceCtorEq] at opened
  all_goals rw [← opened]

theorem encode_of_opening {byte : UInt8} {character : Char}
    (opened : opening byte = .complete (.scalar character)) :
    String.utf8EncodeChar character = [byte] := by
  by_cases ascii : byte < 0x80
  · rw [opening_ascii ascii] at opened
    cases opened
    exact utf8EncodeChar_one (Nat.le_of_lt_succ (UInt8.lt_iff_toNat_lt.mp ascii))
  · unfold opening at opened
    rw [if_neg ascii] at opened
    repeat' split at opened
    all_goals cases opened

/-- The bytes of an open sequence, if there is one. -/
def openBytes (state : Option OpenSequence) : List UInt8 :=
  (state.map OpenSequence.bytes).getD []

/-- Bytes that are read as characters only are the bytes of these characters. -/
theorem append_eq_encode_of_piecesFrom {state : Option OpenSequence} {bytes : List UInt8}
    {text : List Char} (sound : ∀ sequence ∈ state, sequence.IsSound)
    (read : piecesFrom state bytes = text.map .scalar) :
    openBytes state ++ bytes = encode text := by
  induction bytes generalizing state text with
  | nil =>
    cases state with
    | none =>
      obtain rfl : text = [] := by simpa [piecesFrom] using read.symm
      rfl
    | some sequence => cases text <;> simp [piecesFrom] at read
  | cons byte bytes inductionHypothesis =>
    have afterCharacter : ∀ {piece : Piece},
        piece :: piecesFrom none bytes = text.map .scalar →
          ∃ character rest, text = character :: rest ∧ piece = .scalar character ∧
            bytes = encode rest := by
      intro piece read
      cases text with
      | nil => cases read
      | cons character rest =>
        rcases List.cons.inj read with ⟨pieceEq, restEq⟩
        exact ⟨character, rest, rfl, pieceEq, inductionHypothesis (by simp) restEq⟩
    cases state with
    | none =>
      rw [piecesFrom] at read
      cases opened : opening byte with
      | complete piece =>
        rw [opened] at read
        rcases afterCharacter read with ⟨character, rest, rfl, rfl, restEq⟩
        rw [encode, List.flatMap_cons, encode_of_opening opened, ← encode, ← restEq]
        rfl
      | incomplete sequence =>
        rw [opened] at read
        have sound' : ∀ other ∈ some sequence, other.IsSound := by
          rintro _ ⟨⟩
          exact isSound_of_opening opened
        rw [← inductionHypothesis sound' read, openBytes, openBytes, Option.map_some,
          Option.getD_some, bytes_of_opening opened]
        rfl
    | some sequence =>
      rw [piecesFrom] at read
      rcases sound sequence rfl with ⟨missing, missingEq, spells⟩
      split at read
      · rename_i accepted
        have extendedEq : (sequence.extend byte).missing = missing := by
          rw [OpenSequence.extend, missingEq, Nat.add_sub_cancel]
        cases missing with
        | zero =>
          rw [if_pos extendedEq] at read
          rcases afterCharacter read with ⟨character, rest, rfl, pieceEq, restEq⟩
          have characterEq : String.utf8EncodeChar character = sequence.bytes ++ [byte] := by
            rw [← Piece.scalar.inj pieceEq]
            exact spells byte accepted
          rw [encode, List.flatMap_cons, characterEq, ← encode, ← restEq, List.append_assoc]
          rfl
        | succ missing =>
          rw [if_neg (by rw [extendedEq]; exact Nat.succ_ne_zero _)] at read
          have sound' : ∀ other ∈ some (sequence.extend byte), other.IsSound := by
            rintro _ ⟨⟩
            exact ⟨missing, extendedEq, spells byte accepted⟩
          rw [← inductionHypothesis sound' read]
          exact (List.append_assoc sequence.bytes [byte] bytes).symm
      · cases text <;> simp at read

theorem eq_map_of_mapM_eq_some {pieces : List Piece} {text : List Char}
    (read : pieces.mapM Piece.character? = some text) : pieces = text.map .scalar := by
  induction pieces generalizing text with
  | nil =>
    cases read
    rfl
  | cons piece pieces inductionHypothesis =>
    rw [List.mapM_cons] at read
    rcases Option.bind_eq_some_iff.mp read with ⟨character, pieceEq, restRead⟩
    rcases Option.bind_eq_some_iff.mp restRead with ⟨rest, restEq, textEq⟩
    obtain rfl : character :: rest = text := Option.some.inj textEq
    cases piece with
    | scalar other =>
      obtain rfl : other = character := Option.some.inj pieceEq
      rw [inductionHypothesis restEq, List.map_cons]
    | illFormed bytes => cases pieceEq

/-- Bytes are read as a text if and only if they are the bytes of this text. -/
theorem decode?_eq_some_iff {bytes : List UInt8} {text : List Char} :
    decode? bytes = some text ↔ bytes = encode text := by
  constructor
  · intro read
    exact append_eq_encode_of_piecesFrom (by simp) (eq_map_of_mapM_eq_some read)
  · rintro rfl
    exact decode?_encode text

end Utf8
end Thumbnails
