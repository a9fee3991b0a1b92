import Thumbnails.Proofs.Json.Grammar

/-!
# Layouts of structures

A structure is written as an object, with its fields in any order and members of no meaning between
them, or as an array of its first fields. A layout says what the fields are and which texts stand
for their values. What such a text gives is a list of settings, each a field with its value, and the
reader turns an empty draft into the one in which exactly these are set.

The layout of the values is not looked into, so a structure inside another one is one more value.
-/

namespace Thumbnails

namespace Json

/-- What stands between the quotes of a string that means some text. -/
def IsSpelled (body : List Char) : Prop :=
  ∃ meant, Spells body meant

variable {α β σ : Type} {blank rest : List Char}

theorem readColon_append (blankIs : IsBlank blank) (rest : List Char) :
    readColon (blank ++ ':' :: rest) = .ok rest := by
  rw [readColon, skipSpace_append blankIs]
  rfl

/-- The fields of a structure: their names in order, the name of the field that a setting sets, and
the texts that stand for its value. -/
structure Layout (σ : Type) where
  names : List String
  name : σ → String
  writes : σ → List Char → Prop

/-- The members of an object with what they set. A member that is no field has any value, and a name
that is allowed and means no field. -/
inductive Layout.Gives (layout : Layout σ) (allowed : List Char → Prop) :
    List Member → List σ → Prop where
  | nil : Gives layout allowed [] []
  | given {member : Member} {setting : σ} {members : List Member} {settings : List σ}
      (spaced : member.IsSpaced) (named : Spells member.name (layout.name setting).toList)
      (written : layout.writes setting member.item.value)
      (others : Gives layout allowed members settings) :
      Gives layout allowed (member :: members) (setting :: settings)
  | foreign {member : Member} {members : List Member} {settings : List σ}
      (spaced : member.IsSpaced) (isAllowed : allowed member.name)
      (unknown : ∀ name ∈ layout.names, ¬Spells member.name name.toList)
      (isValue : IsValue member.item.value) (others : Gives layout allowed members settings) :
      Gives layout allowed (member :: members) settings

/-- An object that sets each field at most once. -/
inductive Layout.IsObject (layout : Layout σ) (allowed : List Char → Prop) :
    List σ → List Char → Prop where
  | empty {blank : List Char} (blankIs : IsBlank blank) :
      IsObject layout allowed [] (Bracket.object.enclose [blank])
  | members {members : List Member} {settings : List σ} (nonempty : members ≠ [])
      (gives : layout.Gives allowed members settings)
      (distinct : (settings.map layout.name).Nodup) :
      IsObject layout allowed settings (Bracket.object.enclose (members.map Member.text))

/-- The items of an array with what they set: the fields of these names, in order, as far as there
are items. -/
inductive Layout.Lists (layout : Layout σ) : List String → List Item → List σ → Prop where
  | nil (names : List String) : Lists layout names [] []
  | cons {item : Item} {setting : σ} {names : List String} {items : List Item}
      {settings : List σ} (spaced : item.IsSpaced) (written : layout.writes setting item.value)
      (others : Lists layout names items settings) :
      Lists layout (layout.name setting :: names) (item :: items) (setting :: settings)

/-- An array of the first fields. -/
inductive Layout.IsArray (layout : Layout σ) : List σ → List Char → Prop where
  | empty {blank : List Char} (blankIs : IsBlank blank) :
      IsArray layout [] (Bracket.array.enclose [blank])
  | items {items : List Item} {settings : List σ} (nonempty : items ≠ [])
      (lists : layout.Lists layout.names items settings) :
      IsArray layout settings (Bracket.array.enclose (items.map Item.text))

inductive Layout.IsStructure (layout : Layout σ) (allowed : List Char → Prop) (settings : List σ)
    (text : List Char) : Prop where
  | object (isObject : layout.IsObject allowed settings text)
  | array (isArray : layout.IsArray settings text)

/-- A field sees whether a setting set it, and it reads what is written for its own settings. -/
structure Layout.Fits (layout : Layout σ) (set : α → σ → α) (field : FieldReader α) : Prop where
  isSet : ∀ draft setting,
    field.isSet (set draft setting) = (field.name == layout.name setting || field.isSet draft)
  blank : ∀ draft blank text, IsBlank blank →
    field.read draft (blank ++ text) = field.read draft text
  read : ∀ draft setting text rest, field.name = layout.name setting →
    layout.writes setting text → Ends rest →
      field.read draft (text ++ rest) = .ok (set draft setting, rest)

/-- The fields are those of the layout, and a draft takes the settings that it writes. -/
structure Layout.Reads (layout : Layout σ) (fields : List (FieldReader α)) (set : α → σ → α) :
    Prop where
  names : fields.map FieldReader.name = layout.names
  known : ∀ setting, layout.name setting ∈ layout.names
  starts : ∀ setting text, layout.writes setting text → Starts text
  fits : ∀ field ∈ fields, layout.Fits set field

/-- None of these settings was made before. -/
def Layout.Awaits (layout : Layout σ) (fields : List (FieldReader α)) (draft : α)
    (settings : List σ) : Prop :=
  ∀ setting ∈ settings, ∀ field ∈ fields, field.name = layout.name setting →
    field.isSet draft = false

variable {layout : Layout σ} {fields : List (FieldReader α)} {set : α → σ → α} {draft : α}
  {setting : σ} {settings : List σ} {member : Member} {members : List Member}

namespace Layout.Reads

/-- The fields that are still to be set are those that this setting does not set. -/
theorem awaits_set (reads : layout.Reads fields set)
    (distinct : ((setting :: settings).map layout.name).Nodup)
    (awaits : layout.Awaits fields draft (setting :: settings)) :
    layout.Awaits fields (set draft setting) settings := by
  intro other otherMem field fieldMem named
  have different : field.name ≠ layout.name setting := by
    intro same
    rw [List.map_cons, List.nodup_cons, ← same, named] at distinct
    exact distinct.1 (List.mem_map_of_mem otherMem)
  rw [(reads.fits field fieldMem).isSet, beq_eq_false_iff_ne.mpr different, Bool.false_or]
  exact awaits other (List.mem_cons_of_mem _ otherMem) field fieldMem named

/-- The field of a setting is found by its name. -/
theorem exists_find?_eq (reads : layout.Reads fields set) (setting : σ) :
    ∃ field ∈ fields, field.name = layout.name setting ∧
      (fields.find? fun field => field.name.toList = (layout.name setting).toList) =
        some field := by
  have known := reads.known setting
  rw [← reads.names] at known
  rcases List.mem_map.mp known with ⟨field, fieldMem, named⟩
  have found : (fields.find? fun field =>
      field.name.toList = (layout.name setting).toList).isSome = true :=
    List.find?_isSome.mpr ⟨field, fieldMem, by simp [named]⟩
  rcases Option.isSome_iff_exists.mp found with ⟨first, firstEq⟩
  have firstNamed := List.find?_some firstEq
  exact ⟨first, List.mem_of_find?_eq_some firstEq,
    String.toList_injective (of_decide_eq_true firstNamed), firstEq⟩

theorem readMember_given (reads : layout.Reads fields set) (spaced : member.IsSpaced)
    (named : Spells member.name (layout.name setting).toList)
    (written : layout.writes setting member.item.value)
    (awaits : layout.Awaits fields draft (setting :: settings)) (ends : Ends rest) :
    readMember fields draft (member.name ++ '"' ::
        (member.middle ++ ':' :: (member.item.text ++ rest))) =
      .ok (set draft setting, member.item.after ++ rest) := by
  rcases reads.exists_find?_eq setting with ⟨field, fieldMem, fieldNamed, found⟩
  have unset := awaits setting List.mem_cons_self field fieldMem fieldNamed
  have read := (reads.fits field fieldMem).read draft setting _ _ fieldNamed written
    (ends.blank_append spaced.item.after)
  rw [readMember, readString_append named, Item.text_append]
  simp only [bind, Except.bind, found, unset, readColon_append spaced.middle,
    (reads.fits field fieldMem).blank draft _ _ spaced.item.before, read]
  rfl

theorem readMember_foreign (reads : layout.Reads fields set) (draft : α)
    (spaced : member.IsSpaced) (isSpelled : IsSpelled member.name)
    (unknown : ∀ name ∈ layout.names, ¬Spells member.name name.toList)
    (isValue : IsValue member.item.value) (ends : Ends rest) :
    readMember fields draft (member.name ++ '"' ::
        (member.middle ++ ':' :: (member.item.text ++ rest))) =
      .ok (draft, member.item.after ++ rest) := by
  rcases isSpelled with ⟨meant, spells⟩
  have missing : (fields.find? fun field => field.name.toList = meant) = none := by
    rw [List.find?_eq_none]
    intro field fieldMem same
    refine unknown field.name ?_ ?_
    · rw [← reads.names]
      exact List.mem_map_of_mem fieldMem
    · rw [of_decide_eq_true same]
      exact spells
  have skipped : skipValue (member.item.text ++ rest) = .ok (member.item.after ++ rest) := by
    apply skipValueFrom_item spaced.item (skips_of_isValue isValue) _ _ _ ends
    rw [List.length_append]
    omega
  rw [readMember, readString_append spells]
  simp only [bind, Except.bind, missing, readColon_append spaced.middle, skipped]
  rfl

end Layout.Reads

theorem readMembers_text (fields : List (FieldReader α)) (fuel : Nat) (draft : α)
    (blankIs : IsBlank blank) (spaced : member.IsSpaced) (rest : List Char) :
    readMembers fields (fuel + 1) draft (blank ++ ',' :: (member.text ++ rest)) = (do
      let (draft, rest) ← readMember fields draft (member.name ++ '"' ::
        (member.middle ++ ':' :: (member.item.text ++ rest)))
      readMembers fields fuel draft rest) := by
  rw [readMembers, skipSpace_append blankIs, skipSpace_of_not_isSpace (by decide)]
  simp only [Member.text_append, skipSpace_append spaced.before]
  rfl

/-- The first member is read like those after it, as if there were a comma before it. -/
theorem readObject_text {next : α} {left : List Char} (spaced : member.IsSpaced)
    (read : readMember fields draft (member.name ++ '"' ::
      (member.middle ++ ':' :: (member.item.text ++ rest))) = .ok (next, left)) :
    readObject fields draft (member.text ++ rest) =
      readMembers fields (left.length + 2) draft (',' :: (member.text ++ rest)) := by
  have later := readMembers_text fields (left.length + 1) draft (List.forall_mem_nil _) spaced rest
  rw [List.nil_append, read] at later
  rw [later, Member.text_append, readObject, skipSpace_append spaced.before]
  change (do
    let (draft, rest) ← readMember fields draft _
    readMembers fields (rest.length + 1) draft rest) = _
  rw [read]
  rfl

/-- An item is not the end of its array. -/
theorem Starts.exists_cons {value : List Char} (starts : Starts value) :
    ∃ character others, value = character :: others ∧ character ≠ ']' := by
  rcases starts with ⟨character, others, valueEq, _, noMark⟩
  refine ⟨character, others, valueEq, ?_⟩
  rintro rfl
  exact noMark (by simp)

theorem skipSpace_text {item : Item} (spaced : item.IsSpaced) (starts : Starts item.value)
    (rest : List Char) :
    skipSpace (item.text ++ rest) = item.value ++ (item.after ++ rest) := by
  rw [Item.text_append, skipSpace_append spaced.before, starts.skipSpace_eq]

theorem readItems_first {field : FieldReader α} {later : List (FieldReader α)} {item : Item}
    (spaced : item.IsSpaced) (starts : Starts item.value) (draft : α) (rest : List Char) :
    readItems (field :: later) true draft (item.text ++ rest) = (do
      let (draft, rest) ← field.read draft (item.value ++ (item.after ++ rest))
      readItems later false draft rest) := by
  rcases starts.exists_cons with ⟨character, others, valueEq, noEnd⟩
  rw [readItems, skipSpace_text spaced starts, valueEq, List.cons_append]
  split
  · rename_i same
    cases same
  · rename_i same
    exact absurd (List.cons.inj same).1 noEnd
  · rename_i same
    cases same
    rfl

/-- An item after the first one is read behind its comma. -/
theorem readItems_text {field : FieldReader α} {later : List (FieldReader α)} {item : Item}
    (blankIs : IsBlank blank) (spaced : item.IsSpaced) (starts : Starts item.value) (draft : α)
    (rest : List Char) :
    readItems (field :: later) false draft (blank ++ ',' :: (item.text ++ rest)) = (do
      let (draft, rest) ← field.read draft (item.value ++ (item.after ++ rest))
      readItems later false draft rest) := by
  rcases starts.exists_cons with ⟨character, others, valueEq, noEnd⟩
  rw [readItems, skipSpace_append blankIs, skipSpace_of_not_isSpace (by decide)]
  split
  · rename_i same
    cases same
  · rename_i same
    cases same
  · rename_i comma
    cases comma
    rw [if_neg (by decide), if_pos rfl, skipSpace_text spaced starts, valueEq, List.cons_append]
    split
    · rename_i same
      cases same
    · rename_i same
      exact absurd (List.cons.inj same).1 noEnd
    · rfl

/-- The closing bracket is left, and it is found behind white space. -/
theorem readItems_end (later : List (FieldReader α)) (first : Bool) (draft : α)
    (blankIs : IsBlank blank) (rest : List Char) :
    ∃ left, readItems later first draft (blank ++ ']' :: rest) = .ok (draft, left) ∧
      readArrayEnd left = .ok rest := by
  have found : readArrayEnd (blank ++ ']' :: rest) = .ok rest := by
    rw [readArrayEnd, skipSpace_append blankIs]
    rfl
  cases later with
  | nil => exact ⟨blank ++ ']' :: rest, rfl, found⟩
  | cons field later =>
      refine ⟨']' :: rest, ?_, rfl⟩
      rw [readItems, skipSpace_append blankIs]
      rfl

namespace Layout.Reads

/-- Every member takes one unit of fuel, and the closing bracket takes the last one. -/
theorem readMembers_eq (reads : layout.Reads fields set)
    (gives : layout.Gives IsSpelled members settings)
    (distinct : (settings.map layout.name).Nodup) (awaits : layout.Awaits fields draft settings)
    (blankIs : IsBlank blank) (fuel : Nat) (rest : List Char) (enough : members.length < fuel) :
    readMembers fields fuel draft
        (blank ++ ((members.map Member.text).flatMap (',' :: ·) ++ '\x7d' :: rest)) =
      .ok (settings.foldl set draft, rest) := by
  induction gives generalizing draft blank fuel with
  | nil =>
      obtain ⟨fuel, rfl⟩ : ∃ left, fuel = left + 1 := ⟨fuel - 1, by omega⟩
      rw [List.map_nil, List.flatMap_nil, List.nil_append, readMembers, skipSpace_append blankIs]
      rfl
  | @given member setting members settings spaced named written others ih =>
      obtain ⟨fuel, rfl⟩ : ∃ left, fuel = left + 1 := ⟨fuel - 1, by omega⟩
      have ends : Ends ((members.map Member.text).flatMap (',' :: ·) ++ '\x7d' :: rest) :=
        Bracket.object.ends_parts _ rest
      rw [List.map_cons, List.flatMap_cons, List.cons_append, List.cons_append, List.append_assoc,
        readMembers_text fields fuel draft blankIs spaced,
        reads.readMember_given spaced named written awaits ends]
      exact ih (List.nodup_cons.mp distinct).2 (reads.awaits_set distinct awaits) spaced.item.after
        fuel (Nat.lt_of_succ_lt_succ enough)
  | @foreign member members settings spaced isAllowed unknown isValue others ih =>
      obtain ⟨fuel, rfl⟩ : ∃ left, fuel = left + 1 := ⟨fuel - 1, by omega⟩
      have ends : Ends ((members.map Member.text).flatMap (',' :: ·) ++ '\x7d' :: rest) :=
        Bracket.object.ends_parts _ rest
      rw [List.map_cons, List.flatMap_cons, List.cons_append, List.cons_append, List.append_assoc,
        readMembers_text fields fuel draft blankIs spaced,
        reads.readMember_foreign draft spaced isAllowed unknown isValue ends]
      exact ih distinct awaits spaced.item.after fuel (Nat.lt_of_succ_lt_succ enough)

/-- The first member is read, so that the others can be. -/
theorem exists_readMember_eq (reads : layout.Reads fields set)
    (gives : layout.Gives IsSpelled (member :: members) settings)
    (awaits : layout.Awaits fields draft settings) (ends : Ends rest) :
    member.IsSpaced ∧ ∃ next, readMember fields draft (member.name ++ '"' ::
      (member.middle ++ ':' :: (member.item.text ++ rest))) =
        .ok (next, member.item.after ++ rest) := by
  cases gives with
  | given spaced named written others =>
      exact ⟨spaced, _, reads.readMember_given spaced named written awaits ends⟩
  | foreign spaced isAllowed unknown isValue others =>
      exact ⟨spaced, draft, reads.readMember_foreign draft spaced isAllowed unknown isValue ends⟩

theorem readObject_eq (reads : layout.Reads fields set)
    (gives : layout.Gives IsSpelled members settings) (nonempty : members ≠ [])
    (distinct : (settings.map layout.name).Nodup) (awaits : layout.Awaits fields draft settings)
    (rest : List Char) :
    readObject fields draft ([','].intercalate (members.map Member.text) ++ '\x7d' :: rest) =
      .ok (settings.foldl set draft, rest) := by
  rcases List.exists_cons_of_ne_nil nonempty with ⟨member, members, rfl⟩
  have ends : Ends ((members.map Member.text).flatMap (',' :: ·) ++ '\x7d' :: rest) :=
    Bracket.object.ends_parts _ rest
  -- The fuel for the others is counted in what the first member leaves, so that one is read first.
  rcases reads.exists_readMember_eq gives awaits ends with ⟨spaced, next, read⟩
  have enough : (member :: members).length < (member.item.after ++
      ((members.map Member.text).flatMap (',' :: ·) ++ '\x7d' :: rest)).length + 2 := by
    have lengthLe := length_le_length_flatMap_comma (members.map Member.text)
    rw [List.length_map] at lengthLe
    rw [List.length_cons, List.length_append, List.length_append]
    omega
  have all := reads.readMembers_eq gives distinct awaits (List.forall_mem_nil _) _ rest enough
  rw [List.map_cons, intercalate_cons, List.append_assoc, readObject_text spaced read]
  rw [List.nil_append, List.map_cons, List.flatMap_cons, List.append_assoc] at all
  exact all

/-- Every item is read by the next field. The fields may outlast the items. -/
theorem readItems_eq (reads : layout.Reads fields set) {names : List String} {items : List Item}
    (lists : layout.Lists names items settings) {later : List (FieldReader α)}
    (laterNames : later.map FieldReader.name = names) (laterMem : later ⊆ fields) (draft : α)
    (blankIs : IsBlank blank) (rest : List Char) :
    ∃ left, readItems later false draft
        (blank ++ ((items.map Item.text).flatMap (',' :: ·) ++ ']' :: rest)) =
      .ok (settings.foldl set draft, left) ∧ readArrayEnd left = .ok rest := by
  induction lists generalizing later draft blank with
  | nil names => exact readItems_end later false draft blankIs rest
  | @cons item setting names items settings spaced written others ih =>
      rcases List.map_eq_cons_iff.mp laterNames with ⟨field, later, rfl, named, laterNames⟩
      rcases List.cons_subset.mp laterMem with ⟨fieldMem, laterMem⟩
      have ends : Ends ((items.map Item.text).flatMap (',' :: ·) ++ ']' :: rest) :=
        Bracket.array.ends_parts _ rest
      have read := (reads.fits field fieldMem).read draft setting _ _ named written
        (ends.blank_append spaced.after)
      rw [List.map_cons, List.flatMap_cons, List.cons_append, List.cons_append, List.append_assoc,
        readItems_text blankIs spaced (reads.starts _ _ written), read]
      exact ih laterNames laterMem (set draft setting) spaced.after

theorem readItems_all (reads : layout.Reads fields set) {items : List Item}
    (lists : layout.Lists layout.names items settings) (nonempty : items ≠ []) (draft : α)
    (rest : List Char) :
    ∃ left, readItems fields true draft
        ([','].intercalate (items.map Item.text) ++ ']' :: rest) =
      .ok (settings.foldl set draft, left) ∧ readArrayEnd left = .ok rest := by
  have fieldNames := reads.names
  generalize layout.names = names at lists fieldNames
  cases lists with
  | nil names => exact absurd rfl nonempty
  | @cons item setting names items settings spaced written others =>
      rcases List.map_eq_cons_iff.mp fieldNames with ⟨field, later, rfl, named, laterNames⟩
      have ends : Ends ((items.map Item.text).flatMap (',' :: ·) ++ ']' :: rest) :=
        Bracket.array.ends_parts _ rest
      have read := (reads.fits field List.mem_cons_self).read draft setting _ _ named written
        (ends.blank_append spaced.after)
      rw [List.map_cons, intercalate_cons, List.append_assoc,
        readItems_first spaced (reads.starts _ _ written), read]
      exact reads.readItems_eq others laterNames (List.subset_cons_self _ _) (set draft setting)
        spaced.after rest

theorem readObject_isObject (reads : layout.Reads fields set) {text : List Char}
    (isObject : layout.IsObject IsSpelled settings text)
    (awaits : layout.Awaits fields draft settings) (rest : List Char) :
    ∃ behind, text ++ rest = '\x7b' :: behind ∧
      readObject fields draft behind = .ok (settings.foldl set draft, rest) := by
  cases isObject with
  | empty blankIs =>
      refine ⟨_, Bracket.object.enclose_append _ rest, ?_⟩
      rw [List.intercalate_singleton, readObject, skipSpace_append blankIs]
      rfl
  | members nonempty gives distinct =>
      exact ⟨_, Bracket.object.enclose_append _ rest,
        reads.readObject_eq gives nonempty distinct awaits rest⟩

theorem readItems_isArray (reads : layout.Reads fields set) {text : List Char}
    (isArray : layout.IsArray settings text) (draft : α) (rest : List Char) :
    ∃ behind left, text ++ rest = '[' :: behind ∧
      readItems fields true draft behind = .ok (settings.foldl set draft, left) ∧
        readArrayEnd left = .ok rest := by
  cases isArray with
  | empty blankIs =>
      rcases readItems_end fields true draft blankIs rest with ⟨left, read, found⟩
      refine ⟨_, left, Bracket.array.enclose_append _ rest, ?_, found⟩
      rw [List.intercalate_singleton]
      exact read
  | items nonempty lists =>
      rcases reads.readItems_all lists nonempty draft rest with ⟨left, read, found⟩
      exact ⟨_, left, Bracket.array.enclose_append _ rest, read, found⟩

/-- A structure is read from all of its text and nothing else, and exactly its settings are set. -/
theorem readStructure_eq (reads : layout.Reads fields set) {empty : α}
    (fresh : ∀ field ∈ fields, field.isSet empty = false) {finish : α → Except Fault β} {value : β}
    {text : List Char} (isStructure : layout.IsStructure IsSpelled settings text)
    (finished : finish (settings.foldl set empty) = .ok value) (rest : List Char) :
    readStructure fields finish empty (text ++ rest) = .ok (value, rest) := by
  cases isStructure with
  | object isObject =>
      have awaits : layout.Awaits fields empty settings := fun _ _ field fieldMem _ =>
        fresh field fieldMem
      rcases reads.readObject_isObject isObject awaits rest with ⟨behind, textEq, read⟩
      rw [textEq]
      change (do
        let (draft, rest) ← readObject fields empty behind
        let value ← finish draft
        return (value, rest)) = _
      rw [read]
      change (do
        let value ← finish (settings.foldl set empty)
        return (value, rest)) = _
      rw [finished]
      rfl
  | array isArray =>
      rcases reads.readItems_isArray isArray empty rest with ⟨behind, left, textEq, read, found⟩
      rw [textEq]
      change (do
        let (draft, rest) ← readItems fields true empty behind
        let value ← finish draft
        let rest ← readArrayEnd rest
        return (value, rest)) = _
      rw [read]
      change (do
        let value ← finish (settings.foldl set empty)
        let rest ← readArrayEnd left
        return (value, rest)) = _
      rw [finished]
      change (do
        let rest ← readArrayEnd left
        return (value, rest)) = _
      rw [found]
      rfl

end Layout.Reads

theorem Layout.IsStructure.starts {text : List Char} {allowed : List Char → Prop}
    (isStructure : layout.IsStructure allowed settings text) : Starts text := by
  rcases isStructure with ⟨_ | _⟩ | ⟨_ | _⟩
  all_goals exact Bracket.starts_enclose _ _

theorem readStructure_blank {finish : α → Except Fault β} {empty : α} (blankIs : IsBlank blank)
    (text : List Char) :
    readStructure fields finish empty (blank ++ text) = readStructure fields finish empty text := by
  rw [readStructure, readStructure, skipSpace_append blankIs]

end Json

end Thumbnails
