import Thumbnails.Proofs.Json.Lexeme

/-!
# Reading back objects

What is known of the members of an object is said by `Fills`: they set the fields of a draft one
after the other, no field twice, and each value is read where it ends. This does not depend on the
place where the object stands, so an object inside another one is just one more value.
-/

namespace Thumbnails

namespace Json

open Config

variable {α β : Type} {fields : List (FieldReader α)} {draft next final : α}
  {members : List (String × List Char)}

/-- The members turn a draft into another one. Each of them belongs to a field that is not set
before, and the field reads what is written for it. -/
inductive Fills (fields : List (FieldReader α)) : α → List (String × List Char) → α → Prop where
  | nil (draft : α) : Fills fields draft [] draft
  | cons {draft next final : α} {field : FieldReader α} {name : String} {value : List Char}
      {members : List (String × List Char)}
      (known : (fields.find? fun field => field.name.toList = name.toList) = some field)
      (unset : field.isSet draft = false)
      (read : ∀ rest, Closes rest → field.read draft (value ++ rest) = .ok (next, rest))
      (others : Fills fields next members final) :
      Fills fields draft ((name, value) :: members) final

/-- A member as it is written. -/
def memberText (entry : String × List Char) : List Char :=
  jsonString entry.1.toList ++ ':' :: entry.2

theorem intercalate_cons (first : List Char) (others : List (List Char)) :
    [','].intercalate (first :: others) = first ++ others.flatMap (',' :: ·) := by
  induction others generalizing first with
  | nil => rw [List.intercalate_singleton, List.flatMap_nil, List.append_nil]
  | cons second others inductionHypothesis =>
    rw [List.intercalate_cons_cons, inductionHypothesis, List.flatMap_cons]
    simp

theorem jsonObject_cons (entry : String × List Char) (members : List (String × List Char)) :
    jsonObject (entry :: members) =
      '\x7b' :: (memberText entry ++ members.flatMap (',' :: memberText ·) ++ ['\x7d']) := by
  rw [jsonObject, List.map_cons, intercalate_cons, List.flatMap_map]
  rfl

theorem readMember_memberText {field : FieldReader α} {name : String} {value rest : List Char}
    (known : (fields.find? fun field => field.name.toList = name.toList) = some field)
    (unset : field.isSet draft = false)
    (read : field.read draft (value ++ rest) = .ok (next, rest)) :
    readMember fields draft
        (name.toList.flatMap jsonCharacter ++ '"' :: ':' :: (value ++ rest)) =
      .ok (next, rest) := by
  have colon : readColon (':' :: (value ++ rest)) = .ok (value ++ rest) := rfl
  rw [readMember, readString_flatMap_jsonCharacter]
  simp only [bind, Except.bind, known, unset, colon, read]
  rfl

/-- A member begins with the quote that its reader is behind. -/
theorem memberText_append (entry : String × List Char) (rest : List Char) :
    memberText entry ++ rest =
      '"' :: (entry.1.toList.flatMap jsonCharacter ++ '"' :: ':' :: (entry.2 ++ rest)) := by
  simp [memberText, jsonString]

theorem closes_members (members : List (String × List Char)) (rest : List Char) :
    Closes (members.flatMap (',' :: memberText ·) ++ '\x7d' :: rest) := by
  cases members with
  | nil => exact .bracket rest
  | cons entry members => exact .comma _

theorem readMembers_comma (fields : List (FieldReader α)) (fuel : Nat) (draft : α)
    (text : List Char) :
    readMembers fields (fuel + 1) draft (',' :: '"' :: text) = (do
      let (draft, rest) ← readMember fields draft text
      readMembers fields fuel draft rest) :=
  rfl

/-- Every member takes one unit of fuel, and the closing bracket takes the last one. -/
theorem readMembers_of_fills {fuel : Nat} (fills : Fills fields draft members final)
    (rest : List Char) (enough : members.length < fuel) :
    readMembers fields fuel draft (members.flatMap (',' :: memberText ·) ++ '\x7d' :: rest) =
      .ok (final, rest) := by
  induction fills generalizing fuel with
  | nil draft =>
    cases fuel with
    | zero => exact absurd enough (Nat.not_lt_zero _)
    | succ fuel => rfl
  | @cons draft next final field name value members known unset read others inductionHypothesis =>
    cases fuel with
    | zero => exact absurd enough (Nat.not_lt_zero _)
    | succ fuel =>
      have member := readMember_memberText known unset (read _ (closes_members members rest))
      rw [List.flatMap_cons, List.cons_append, List.cons_append, List.append_assoc,
        memberText_append, readMembers_comma, member]
      exact inductionHypothesis (Nat.lt_of_succ_lt_succ enough)

theorem length_le_length_flatMap_comma (parts : List (List Char)) :
    parts.length ≤ (parts.flatMap (',' :: ·)).length := by
  induction parts with
  | nil => exact Nat.le_refl _
  | cons part parts inductionHypothesis =>
    rw [List.flatMap_cons, List.length_append, List.length_cons, List.length_cons]
    omega

/-- An object is read as what its members fill in, and nothing behind it is touched. -/
theorem readObject_jsonObject (fills : Fills fields draft members final) (rest : List Char) :
    ∃ behind, jsonObject members ++ rest = '\x7b' :: behind ∧
      readObject fields draft behind = .ok (final, rest) := by
  cases fills with
  | nil => exact ⟨'\x7d' :: rest, rfl, rfl⟩
  | @cons _ next _ field name value members known unset read others =>
    refine ⟨memberText (name, value) ++
      (members.flatMap (',' :: memberText ·) ++ '\x7d' :: rest), ?_, ?_⟩
    · rw [jsonObject_cons]
      simp only [List.cons_append, List.append_assoc, List.nil_append]
    · have first := readMember_memberText known unset (read _ (closes_members members rest))
      have enough : members.length <
          (members.flatMap (',' :: memberText ·) ++ '\x7d' :: rest).length + 1 := by
        have lengthLe := length_le_length_flatMap_comma (members.map memberText)
        rw [List.length_map, List.flatMap_map] at lengthLe
        rw [List.length_append]
        omega
      rw [memberText_append]
      change (do
        let (draft, rest) ← readMember fields draft _
        readMembers fields (rest.length + 1) draft rest) = _
      rw [first]
      exact readMembers_of_fills others rest enough

/-- A structure that was written as an object is read back, whatever follows it. -/
theorem readStructure_jsonObject {finish : α → Except Fault β} {value : β}
    (fills : Fills fields draft members final) (finished : finish final = .ok value)
    (rest : List Char) :
    readStructure fields finish draft (jsonObject members ++ rest) = .ok (value, rest) := by
  rcases readObject_jsonObject fills rest with ⟨behind, objectEq, object⟩
  rw [objectEq]
  change (do
    let (draft, rest) ← readObject fields draft behind
    let value ← finish draft
    return (value, rest)) = _
  rw [object]
  change (do
    let value ← finish final
    return (value, rest)) = _
  rw [finished]
  rfl

theorem readDocument_jsonObject {finish : α → Except Fault β} {value : β}
    (fills : Fills fields draft members final) (finished : finish final = .ok value) :
    readDocument fields finish draft (jsonObject members) = .ok value := by
  have document := readStructure_jsonObject fills finished []
  rw [List.append_nil] at document
  rw [readDocument, document]
  rfl

/-- A field of one kind sets what its reader gives. -/
theorem field_read {γ : Type} {name : String} {get : α → Option γ} {set : α → γ → α}
    {read : List Char → Except Fault (γ × List Char)} {value : γ} {text rest : List Char}
    (valueRead : read text = .ok (value, rest)) :
    (field name get set read).read draft text = .ok (set draft value, rest) := by
  rw [field]
  dsimp only
  rw [valueRead]
  rfl

end Json

end Thumbnails
