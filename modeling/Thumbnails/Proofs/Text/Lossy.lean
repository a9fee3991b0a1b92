import Mathlib.Data.List.Basic
import Thumbnails.Text.Utf8

/-!
# Lossy texts and their separators

The text of arbitrary bytes shows a replacement character for every ill-formed piece, so it does
not tell the bytes. It does tell where an ASCII character stands: nothing else is read as one
(`Utf8.separator_not_mem_decodeLossy`). Bytes with the same text are therefore cut alike at the last
separator (`Utf8.exists_cut_of_decodeLossy_eq`).

The null character is left out, because it also stands for numbers that are no characters.
-/

namespace Thumbnails

namespace Utf8

/-- An open sequence that does not end in an ASCII character, whatever follows. -/
def OpenSequence.Exceeds (sequence : OpenSequence) : Prop :=
  2 ≤ sequence.value ∨
    2 ≤ sequence.missing ∧ (1 ≤ sequence.value ∨ 0x90 ≤ sequence.lowest.toNat)

/-- The narrowed ranges exclude overlong forms, so every opened sequence is one of a large
number. -/
theorem exceeds_of_opening {byte : UInt8} {sequence : OpenSequence}
    (opened : opening byte = .incomplete sequence) : sequence.Exceeds := by
  unfold opening at opened
  split at opened
  · cases opened
  split at opened
  · cases opened
  rename_i _ notSingle
  have two : 0xc2 ≤ byte.toNat := by simpa [UInt8.lt_iff_toNat_lt] using notSingle
  split at opened
  · cases opened
    left
    change 2 ≤ byte.toNat - 0xc0
    omega
  rename_i notTwo
  have three : 0xe0 ≤ byte.toNat := by simpa [UInt8.lt_iff_toNat_lt] using notTwo
  right
  split at opened
  · cases opened
    simp
  rename_i notLeast
  split at opened
  · cases opened
    simp
  split at opened
  · cases opened
    have different : byte.toNat ≠ 0xe0 := fun same => notLeast (UInt8.toNat_inj.mp same)
    change 2 ≤ 2 ∧ (1 ≤ byte.toNat - 0xe0 ∨ _)
    omega
  rename_i notThree
  have four : 0xf0 ≤ byte.toNat := by simpa [UInt8.lt_iff_toNat_lt] using notThree
  split at opened
  · cases opened
    simp
  rename_i notLeast'
  split at opened
  · cases opened
    have different : byte.toNat ≠ 0xf0 := fun same => notLeast' (UInt8.toNat_inj.mp same)
    change 2 ≤ 3 ∧ (1 ≤ byte.toNat - 0xf0 ∨ _)
    omega
  split at opened
  · cases opened
    simp
  · cases opened

/-- One more byte leaves a large number to be completed, or completes one. -/
theorem OpenSequence.Exceeds.extend {sequence : OpenSequence} {byte : UInt8}
    (exceeds : sequence.Exceeds) (accepted : sequence.accepts byte = true) :
    (sequence.extend byte).Exceeds ∧
      ((sequence.extend byte).missing = 0 → 0x80 ≤ (sequence.extend byte).value) := by
  simp only [accepts, Bool.and_eq_true, decide_eq_true_eq, UInt8.le_iff_toNat_le] at accepted
  simp only [Exceeds, OpenSequence.extend] at exceeds ⊢
  omega

/-- There is only one way to cut a list at the last occurrence of an element. -/
theorem eq_of_append_cons_eq {α : Type} {separator : α} {front back front' back' : List α}
    (absent : separator ∉ back) (absent' : separator ∉ back')
    (same : front ++ separator :: back = front' ++ separator :: back') :
    front = front' ∧ back = back' := by
  rcases List.append_eq_append_iff.mp same with ⟨rest, frontEq, backEq⟩ | ⟨rest, frontEq, backEq⟩
  · cases rest with
    | nil => simpa [eq_comm] using And.intro frontEq backEq
    | cons first rest => exact absurd (by simp [(List.cons.inj backEq).2]) absent
  · cases rest with
    | nil => simpa [eq_comm] using And.intro frontEq backEq
    | cons first rest => exact absurd (by simp [(List.cons.inj backEq).2]) absent'

theorem exists_last_cut {α : Type} {separator : α} {whole : List α} (present : separator ∈ whole) :
    ∃ front back, whole = front ++ separator :: back ∧ separator ∉ back := by
  rcases List.eq_append_cons_of_mem (List.mem_reverse.mpr present) with
    ⟨back, front, cut, absent⟩
  refine ⟨front.reverse, back.reverse, ?_, by simpa using absent⟩
  rw [← whole.reverse_reverse, cut]
  simp

theorem piecesFrom_some_ne_nil (sequence : OpenSequence) (bytes : List UInt8) :
    piecesFrom (some sequence) bytes ≠ [] := by
  induction bytes generalizing sequence with
  | nil => simp [piecesFrom]
  | cons byte rest inductionHypothesis =>
      simp only [piecesFrom]
      split
      · split
        · simp
        · exact inductionHypothesis _
      · simp

/-- Every byte shows. -/
theorem decodeLossy_eq_nil_iff {bytes : List UInt8} : decodeLossy bytes = [] ↔ bytes = [] := by
  rw [decodeLossy, List.map_eq_nil_iff]
  refine ⟨?_, fun empty => by rw [empty]; rfl⟩
  cases bytes with
  | nil => exact fun _ => rfl
  | cons byte rest =>
      intro empty
      simp only [pieces, piecesFrom] at empty
      split at empty
      · cases empty
      · exact absurd empty (piecesFrom_some_ne_nil _ _)

section Separator

variable {separator : UInt8} (ascii : separator < 0x80) (notNull : separator ≠ 0)

include ascii in
theorem toNat_separator : (Char.ofNat separator.toNat).toNat = separator.toNat := by
  have valid : separator.toNat.isValidChar :=
    Or.inl (Nat.lt_trans (UInt8.lt_iff_toNat_lt.mp ascii) (by decide))
  rw [Char.ofNat, dif_pos valid]
  rfl

include ascii notNull

/-- A number that is no character stands for the null character, which is not looked for. -/
theorem ofNat_ne_separator {value : Nat} (large : 0x80 ≤ value) :
    Char.ofNat value ≠ Char.ofNat separator.toNat := by
  intro same
  have numbers := congrArg Char.toNat same
  have bound : separator.toNat < 0x80 := UInt8.lt_iff_toNat_lt.mp ascii
  have positive : separator.toNat ≠ 0 := fun zero => notNull (UInt8.toNat_inj.mp zero)
  rw [toNat_separator ascii, Char.ofNat] at numbers
  by_cases valid : value.isValidChar
  · rw [dif_pos valid] at numbers
    change value = separator.toNat at numbers
    omega
  · rw [dif_neg valid] at numbers
    exact positive numbers.symm

omit notNull in
theorem ne_separator_of_opening {byte : UInt8} {piece : Piece} (different : byte ≠ separator)
    (opened : opening byte = .complete piece) :
    piece ≠ .scalar (Char.ofNat separator.toNat) := by
  by_cases small : byte < 0x80
  · rw [opening_ascii small] at opened
    cases opened
    intro same
    have numbers := congrArg Char.toNat (Piece.scalar.inj same)
    rw [toNat_separator ascii, toNat_separator small] at numbers
    exact different (UInt8.toNat_inj.mp numbers)
  · rintro rfl
    unfold opening at opened
    rw [if_neg small] at opened
    repeat' split at opened
    all_goals cases opened

theorem separator_not_mem_piecesFrom {bytes : List UInt8} (absent : separator ∉ bytes)
    (state : Option OpenSequence) (exceeds : ∀ sequence ∈ state, sequence.Exceeds) :
    .scalar (Char.ofNat separator.toNat) ∉ piecesFrom state bytes := by
  induction bytes generalizing state with
  | nil => cases state <;> simp [piecesFrom]
  | cons byte rest inductionHypothesis =>
      simp only [List.mem_cons, not_or] at absent
      have fresh := inductionHypothesis absent.2 none (by simp)
      have opened : ∀ piece, opening byte = .complete piece →
          .scalar (Char.ofNat separator.toNat) ∉ piece :: piecesFrom none rest := by
        intro piece complete
        rw [List.mem_cons, not_or]
        exact ⟨(ne_separator_of_opening ascii (Ne.symm absent.1) complete).symm, fresh⟩
      have continued : ∀ sequence : OpenSequence, sequence.Exceeds →
          .scalar (Char.ofNat separator.toNat) ∉ piecesFrom (some sequence) rest := by
        intro sequence large
        apply inductionHypothesis absent.2
        rintro _ ⟨⟩
        exact large
      cases state with
      | none =>
          simp only [piecesFrom]
          split
          · exact opened _ ‹_›
          · exact continued _ (exceeds_of_opening ‹_›)
      | some sequence =>
          simp only [piecesFrom]
          split
          · rename_i accepted
            rcases (exceeds sequence rfl).extend accepted with ⟨large, finished⟩
            split
            · rename_i complete
              rw [List.mem_cons, not_or, Piece.scalar.injEq]
              exact ⟨(ofNat_ne_separator ascii notNull (finished complete)).symm, fresh⟩
            · exact continued _ large
          · rw [List.mem_cons, not_or]
            refine ⟨by simp, ?_⟩
            split
            · exact opened _ ‹_›
            · exact continued _ (exceeds_of_opening ‹_›)

/-- A text shows a separator only where its bytes hold it. -/
theorem separator_not_mem_decodeLossy {bytes : List UInt8} (absent : separator ∉ bytes) :
    Char.ofNat separator.toNat ∉ decodeLossy bytes := by
  intro shown
  rcases List.mem_map.mp shown with ⟨piece, pieceMem, displayed⟩
  cases piece with
  | scalar character =>
      obtain rfl : character = Char.ofNat separator.toNat := displayed
      exact separator_not_mem_piecesFrom ascii notNull absent none (by simp) pieceMem
  | illFormed piece =>
      have large : Char.ofNat 0xfffd = Char.ofNat separator.toNat := displayed
      exact ofNat_ne_separator ascii notNull (by decide) large

omit notNull in
theorem decodeLossy_append_separator (front back : List UInt8) :
    decodeLossy (front ++ separator :: back) =
      decodeLossy front ++ Char.ofNat separator.toNat :: decodeLossy back := by
  rw [decodeLossy, pieces_append_ascii front back ascii, List.map_append, List.map_cons]
  rfl

theorem mem_iff_of_decodeLossy_eq {left right : List UInt8}
    (same : decodeLossy left = decodeLossy right) : separator ∈ left ↔ separator ∈ right := by
  have shown : ∀ bytes, separator ∈ bytes ↔ Char.ofNat separator.toNat ∈ decodeLossy bytes := by
    intro bytes
    constructor
    · intro present
      rcases List.append_of_mem present with ⟨front, back, rfl⟩
      rw [decodeLossy_append_separator ascii]
      simp
    · intro shown
      by_contra absent
      exact separator_not_mem_decodeLossy ascii notNull absent shown
  rw [shown, shown, same]

/-- Bytes with the same text hold their last separator at the same place of the text. -/
theorem exists_cut_of_decodeLossy_eq {right front back : List UInt8}
    (same : decodeLossy (front ++ separator :: back) = decodeLossy right)
    (absent : separator ∉ back) : ∃ front' back', right = front' ++ separator :: back' ∧
      separator ∉ back' ∧ decodeLossy front = decodeLossy front' ∧
        decodeLossy back = decodeLossy back' := by
  have present : separator ∈ right :=
    (mem_iff_of_decodeLossy_eq ascii notNull same).mp (by simp)
  rcases exists_last_cut present with ⟨front', back', rfl, absent'⟩
  rw [decodeLossy_append_separator ascii, decodeLossy_append_separator ascii] at same
  have texts := eq_of_append_cons_eq (separator_not_mem_decodeLossy ascii notNull absent)
    (separator_not_mem_decodeLossy ascii notNull absent') same
  exact ⟨front', back', rfl, absent', texts⟩

/-- Separators alone are told by their text. -/
theorem eq_replicate_of_decodeLossy_eq {count : Nat} {bytes : List UInt8}
    (same : decodeLossy (List.replicate count separator) = decodeLossy bytes) :
    bytes = List.replicate count separator := by
  induction count generalizing bytes with
  | zero => exact decodeLossy_eq_nil_iff.mp same.symm
  | succ count inductionHypothesis =>
      rw [List.replicate_succ'] at same ⊢
      rcases exists_cut_of_decodeLossy_eq ascii notNull same (by simp) with
        ⟨front, back, rfl, _, fronts, backs⟩
      rw [inductionHypothesis fronts, decodeLossy_eq_nil_iff.mp backs.symm]

end Separator

end Utf8

end Thumbnails
