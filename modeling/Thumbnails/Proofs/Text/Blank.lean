import Mathlib.Data.List.DropRight
import Thumbnails.Text.Blank

/-!
# Trimming

A text that is not blank has a core: it begins and ends with a character that is not blank, and all
around it is. There is only one, and trimming finds it (`Text.HasCore.trim_eq`).
-/

namespace Thumbnails

namespace Text

variable {text core : List Char}

def IsBlank (text : List Char) : Prop :=
  ∀ character ∈ text, isBlank character = true

/-- What is left of a text without the blanks at its ends. -/
structure HasCore (text core : List Char) : Prop where
  surrounded : ∃ front back, text = front ++ (core ++ back) ∧ IsBlank front ∧ IsBlank back
  begins : ∃ character rest, core = character :: rest ∧ ¬isBlank character = true
  ends : ∃ rest character, core = rest ++ [character] ∧ ¬isBlank character = true

theorem trim_eq (text : List Char) :
    trim text = (text.dropWhile isBlank).rdropWhile isBlank :=
  rfl

theorem HasCore.trim_eq (hasCore : HasCore text core) : trim text = core := by
  rcases hasCore.surrounded with ⟨front, back, rfl, frontBlank, backBlank⟩
  rcases hasCore.begins with ⟨first, rest, begins, firstNotBlank⟩
  rcases hasCore.ends with ⟨initial, last, ends, lastNotBlank⟩
  have left : (front ++ (core ++ back)).dropWhile isBlank = core ++ back := by
    rw [List.dropWhile_append_of_pos frontBlank, begins, List.cons_append,
      List.dropWhile_cons_of_neg firstNotBlank]
  have right : (core ++ back).reverse.dropWhile isBlank = core.reverse := by
    rw [List.reverse_append,
      List.dropWhile_append_of_pos fun character characterMem =>
        backBlank character (List.mem_reverse.mp characterMem),
      ends, List.reverse_concat, List.dropWhile_cons_of_neg lastNotBlank]
  rw [trim, left, right, List.reverse_reverse]

theorem trim_eq_nil_iff : trim text = [] ↔ IsBlank text := by
  rw [trim_eq, List.rdropWhile_eq_nil_iff, IsBlank]
  constructor
  · intro restBlank character characterMem
    rw [← List.takeWhile_append_dropWhile (p := isBlank) (l := text)] at characterMem
    rcases List.mem_append.mp characterMem with front | rest
    · exact List.mem_takeWhile_imp front
    · exact restBlank character rest
  · intro blank character characterMem
    exact blank character ((List.dropWhile_suffix _).subset characterMem)

theorem hasCore_trim (notBlank : ¬IsBlank text) : HasCore text (trim text) := by
  rw [← trim_eq_nil_iff] at notBlank
  refine ⟨?surrounded, ?begins, ?ends⟩
  case surrounded =>
    refine ⟨text.takeWhile isBlank, (text.dropWhile isBlank).rtakeWhile isBlank, ?_, ?_, ?_⟩
    · rw [trim_eq, List.rdropWhile_append_rtakeWhile, List.takeWhile_append_dropWhile]
    · intro character characterMem
      exact List.mem_takeWhile_imp characterMem
    · intro character characterMem
      exact List.mem_rtakeWhile_imp characterMem
  case begins =>
    rcases List.exists_cons_of_ne_nil notBlank with ⟨character, rest, trimmed⟩
    refine ⟨character, rest, trimmed, ?_⟩
    rcases List.rdropWhile_prefix isBlank (text.dropWhile isBlank) with ⟨back, whole⟩
    rw [← trim_eq, trimmed] at whole
    have first := List.head?_dropWhile_not isBlank text
    rw [← whole] at first
    exact ne_true_of_eq_false first
  case ends =>
    have last := List.rdropWhile_last_not isBlank _ notBlank
    refine ⟨(trim text).dropLast, (trim text).getLast notBlank, ?_, last⟩
    exact (List.dropLast_append_getLast notBlank).symm

end Text

end Thumbnails
