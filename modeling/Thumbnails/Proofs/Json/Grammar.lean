import Thumbnails.Proofs.Json.Structure

/-!
# The grammar of JSON

What a JSON value is can be said without a reader: words, numbers, strings, arrays and objects,
with white space around every item and every member. A reader that has no use for a value passes
over it, and `skips_of_isValue` says that it takes all of it and nothing else, however the value
nests.

An array and an object have the same shape, parts between brackets with commas in between. So
passing over them is one argument about a list of parts (`Bracket.Passes`), whatever a part is.
-/

namespace Thumbnails

namespace Json

def IsBlank (text : List Char) : Prop :=
  ∀ character ∈ text, isSpace character = true

/-- A text that begins with something that is neither white space nor the end of a structure. -/
def Starts (text : List Char) : Prop :=
  ∃ character rest, text = character :: rest ∧ isSpace character = false ∧
    character ∉ [',', ']', '\x7d']

variable {blank rest digits body value : List Char}

theorem skipSpace_append (blankIs : IsBlank blank) (rest : List Char) :
    skipSpace (blank ++ rest) = skipSpace rest := by
  rw [skipSpace, List.dropWhile_append_of_pos blankIs]
  rfl

theorem skipSpace_of_isBlank (blankIs : IsBlank blank) : skipSpace blank = [] := by
  have skipped := skipSpace_append blankIs []
  rwa [List.append_nil] at skipped

theorem skipSpace_of_not_isSpace {character : Char} (dark : isSpace character = false)
    (rest : List Char) : skipSpace (character :: rest) = character :: rest := by
  rw [skipSpace, List.dropWhile_cons_of_neg (by simp [dark])]

theorem Starts.skipSpace_eq (starts : Starts value) (rest : List Char) :
    skipSpace (value ++ rest) = value ++ rest := by
  rcases starts with ⟨character, others, rfl, dark, _⟩
  exact skipSpace_of_not_isSpace dark (others ++ rest)

theorem Ends.blank_append (blankIs : IsBlank blank) (ends : Ends rest) : Ends (blank ++ rest) := by
  cases blank with
  | nil => exact ends
  | cons character others => exact .cons _ (.inl (blankIs character List.mem_cons_self))

theorem Ends.of_mark {character : Char} (mark : character ∈ [',', ']', '\x7d'])
    (rest : List Char) : Ends (character :: rest) :=
  .cons rest (.inr mark)

def IsDigits (text : List Char) : Prop :=
  text ≠ [] ∧ ∀ character ∈ text, isDigit character = true

/-- Zero, or digits that do not begin with it. -/
def IsWhole (text : List Char) : Prop :=
  IsDigits text ∧ (text.head? = some '0' → text = ['0'])

inductive IsFraction : List Char → Prop where
  | absent : IsFraction []
  | present {digits : List Char} (isDigits : IsDigits digits) : IsFraction ('.' :: digits)

inductive IsExponent : List Char → Prop where
  | absent : IsExponent []
  | present {mark : Char} {sign digits : List Char} (markIs : mark = 'e' ∨ mark = 'E')
      (signIs : sign = [] ∨ sign = ['+'] ∨ sign = ['-']) (isDigits : IsDigits digits) :
      IsExponent (mark :: (sign ++ digits))

/-- A number of any size, without its sign. -/
inductive IsUnsigned : List Char → Prop where
  | mk {whole fraction exponent : List Char} (isWhole : IsWhole whole)
      (isFraction : IsFraction fraction) (isExponent : IsExponent exponent) :
      IsUnsigned (whole ++ (fraction ++ exponent))

/-- A text that no digit continues. -/
def StopsDigits (text : List Char) : Prop :=
  ∀ character ∈ text.head?, isDigit character = false

theorem StopsDigits.cons {character : Char} (noDigit : isDigit character = false)
    (rest : List Char) : StopsDigits (character :: rest) := by
  intro other otherEq
  cases otherEq
  exact noDigit

theorem not_isDigit_of_mark {character : Char}
    (mark : character ∈ [' ', '\t', '\n', '\r', ',', ']', '\x7d']) :
    isDigit character = false := by
  simp only [List.mem_cons, List.not_mem_nil, or_false] at mark
  rcases mark with rfl | rfl | rfl | rfl | rfl | rfl | rfl
  all_goals rfl

theorem Ends.stopsDigits (ends : Ends rest) : StopsDigits rest := by
  rcases ends.cases_on_mark with rfl | ⟨character, others, rfl, mark⟩
  · exact nofun
  · exact .cons (not_isDigit_of_mark mark) others

theorem StopsDigits.take_drop (stops : StopsDigits rest) (isDigits : IsDigits digits) :
    (digits ++ rest).takeWhile isDigit = digits ∧ (digits ++ rest).dropWhile isDigit = rest := by
  rw [List.takeWhile_append_of_pos isDigits.2, List.dropWhile_append_of_pos isDigits.2]
  cases rest with
  | nil => exact ⟨List.append_nil _, rfl⟩
  | cons character others =>
      have noDigit : isDigit character = false := stops character rfl
      simp [noDigit]

theorem skipDigits_append (isDigits : IsDigits digits) (stops : StopsDigits rest) :
    skipDigits (digits ++ rest) = .ok rest := by
  rcases stops.take_drop isDigits with ⟨taken, dropped⟩
  rw [skipDigits, taken, dropped, if_neg]
  simpa using isDigits.1

/-- Digits begin with a digit, which is neither a sign nor any other mark. -/
theorem IsDigits.exists_cons (isDigits : IsDigits digits) :
    ∃ first others, digits = first :: others ∧ isDigit first = true := by
  rcases List.exists_cons_of_ne_nil isDigits.1 with ⟨first, others, digitsEq⟩
  exact ⟨first, others, digitsEq, isDigits.2 first (by simp [digitsEq])⟩

/-- What follows a value has neither a fraction nor an exponent to be passed over. -/
theorem Ends.skips (ends : Ends rest) :
    skipFraction rest = .ok rest ∧ skipExponent rest = .ok rest := by
  rcases ends.cases_on_mark with rfl | ⟨character, others, rfl, mark⟩
  · exact ⟨rfl, rfl⟩
  · simp only [List.mem_cons, List.not_mem_nil, or_false] at mark
    rcases mark with rfl | rfl | rfl | rfl | rfl | rfl | rfl
    all_goals exact ⟨rfl, rfl⟩

theorem skipExponent_append {exponent : List Char} (isExponent : IsExponent exponent)
    (ends : Ends rest) : skipExponent (exponent ++ rest) = .ok rest := by
  cases isExponent with
  | absent => exact ends.skips.2
  | present markIs signIs isDigits =>
      have skipped := skipDigits_append isDigits ends.stopsDigits
      rw [List.cons_append, List.append_assoc]
      rcases signIs with rfl | rfl | rfl
      · rcases isDigits.exists_cons with ⟨first, others, rfl, firstIs⟩
        have noMinus : first ≠ '-' := by
          rintro rfl
          cases firstIs
        have noPlus : first ≠ '+' := by
          rintro rfl
          cases firstIs
        rw [List.cons_append] at skipped
        rcases markIs with rfl | rfl <;> simp [skipExponent, noMinus, noPlus, skipped]
      · rcases markIs with rfl | rfl <;> exact skipped
      · rcases markIs with rfl | rfl <;> exact skipped

/-- An exponent and what follows it go on with neither a digit nor a fraction. -/
theorem IsExponent.stops {exponent : List Char} (isExponent : IsExponent exponent)
    (ends : Ends rest) : StopsDigits (exponent ++ rest) ∧
      skipFraction (exponent ++ rest) = .ok (exponent ++ rest) := by
  cases isExponent with
  | absent => exact ⟨ends.stopsDigits, ends.skips.1⟩
  | present markIs signIs isDigits =>
      rcases markIs with rfl | rfl <;> exact ⟨.cons rfl _, rfl⟩

theorem IsFraction.stops {fraction : List Char} (isFraction : IsFraction fraction)
    {rest : List Char} (stops : StopsDigits rest) (pure : skipFraction rest = .ok rest) :
    StopsDigits (fraction ++ rest) ∧ skipFraction (fraction ++ rest) = .ok rest := by
  cases isFraction with
  | absent => exact ⟨stops, pure⟩
  | present isDigits => exact ⟨.cons rfl _, skipDigits_append isDigits stops⟩

theorem skipNumber_append {number : List Char} (isUnsigned : IsUnsigned number)
    (ends : Ends rest) : skipNumber (number ++ rest) = .ok rest := by
  rcases isUnsigned with ⟨isWhole, isFraction, isExponent⟩
  rename_i whole fraction exponent
  rcases isExponent.stops ends with ⟨exponentStops, noFraction⟩
  rcases isFraction.stops exponentStops noFraction with ⟨fractionStops, fractionSkipped⟩
  rcases fractionStops.take_drop isWhole.1 with ⟨taken, _⟩
  have noLeadingZero : ¬(whole.head? = some '0' ∧ whole.length > 1) := by
    rintro ⟨leadingZero, long⟩
    rw [isWhole.2 leadingZero] at long
    exact absurd long (by decide)
  rw [List.append_assoc, List.append_assoc, skipNumber, taken]
  simp only [if_neg noLeadingZero, skipDigits_append isWhole.1 fractionStops, fractionSkipped,
    bind, Except.bind]
  exact skipExponent_append isExponent ends

/-- What may stand between the quotes of a string. An escaped number need not be that of a
character. -/
inductive IsBody : List Char → Prop where
  | nil : IsBody []
  | plain {character : Char} {body : List Char} (noQuote : character ≠ '"')
      (noBackslash : character ≠ '\\') (noControl : 0x20 ≤ character.toNat)
      (others : IsBody body) : IsBody (character :: body)
  | short {character : Char} {body : List Char} (known : (shortEscape? character).isSome = true)
      (others : IsBody body) : IsBody ('\\' :: character :: body)
  | numbered {digits body : List Char} {number : Nat} (isHex : HexDigits digits number)
      (others : IsBody body) : IsBody ('\\' :: 'u' :: (digits ++ body))

theorem skipCharacters_append {fuel : Nat} (isBody : IsBody body) (rest : List Char)
    (enough : body.length < fuel) : skipCharacters fuel (body ++ '"' :: rest) = .ok rest := by
  induction isBody generalizing fuel with
  | nil =>
      obtain ⟨fuel, rfl⟩ := Nat.exists_eq_add_one_of_ne_zero (Nat.ne_zero_of_lt enough)
      rfl
  | plain noQuote noBackslash noControl others ih =>
      obtain ⟨fuel, rfl⟩ := Nat.exists_eq_add_one_of_ne_zero (Nat.ne_zero_of_lt enough)
      rw [List.cons_append, skipCharacters, if_neg noQuote, if_neg noBackslash,
        if_neg (Nat.not_lt.mpr noControl)]
      exact ih (Nat.lt_of_succ_lt_succ enough)
  | short known others ih =>
      rename_i character body
      obtain ⟨fuel, rfl⟩ := Nat.exists_eq_add_one_of_ne_zero (Nat.ne_zero_of_lt enough)
      have escape : skipEscape (character :: (body ++ '"' :: rest)) =
          .ok (body ++ '"' :: rest) := by
        rw [skipEscape, if_pos known]
        rintro rfl
        cases known
      rw [List.cons_append, List.cons_append, skipCharacters, if_neg (by decide), if_pos rfl,
        escape]
      refine ih ?_
      rw [List.length_cons, List.length_cons] at enough
      omega
  | numbered isHex others ih =>
      rename_i digits body number
      obtain ⟨fuel, rfl⟩ := Nat.exists_eq_add_one_of_ne_zero (Nat.ne_zero_of_lt enough)
      have escape : skipEscape ('u' :: (digits ++ (body ++ '"' :: rest))) =
          .ok (body ++ '"' :: rest) := by
        rw [skipEscape, readHex_append isHex]
        rfl
      rw [List.cons_append, List.cons_append, List.append_assoc, skipCharacters,
        if_neg (by decide), if_pos rfl, escape]
      refine ih ?_
      rw [List.length_cons, List.length_cons, List.length_append] at enough
      omega

theorem skipString_append (isBody : IsBody body) (rest : List Char) :
    skipString (body ++ '"' :: rest) = .ok rest := by
  apply skipCharacters_append isBody
  rw [List.length_append]
  omega

/-- A value with the white space around it. -/
structure Item where
  before : List Char
  value : List Char
  after : List Char

/-- A member of an object. Its name is what stands between the quotes. -/
structure Member where
  before : List Char
  name : List Char
  middle : List Char
  item : Item

def Item.text (item : Item) : List Char :=
  item.before ++ (item.value ++ item.after)

def Member.text (member : Member) : List Char :=
  member.before ++ '"' :: (member.name ++ '"' :: (member.middle ++ ':' :: member.item.text))

theorem Item.text_append (item : Item) (rest : List Char) :
    item.text ++ rest = item.before ++ (item.value ++ (item.after ++ rest)) := by
  simp [Item.text]

theorem Member.text_append (member : Member) (rest : List Char) :
    member.text ++ rest = member.before ++ '"' :: (member.name ++ '"' ::
      (member.middle ++ ':' :: (member.item.text ++ rest))) := by
  simp [Member.text]

structure Item.IsSpaced (item : Item) : Prop where
  before : IsBlank item.before
  after : IsBlank item.after

structure Member.IsSpaced (member : Member) : Prop where
  before : IsBlank member.before
  middle : IsBlank member.middle
  item : member.item.IsSpaced

namespace Bracket

def opening : Bracket → Char
  | array => '['
  | object => '\x7b'

/-- Some parts between brackets, with commas in between. -/
def enclose (bracket : Bracket) (parts : List (List Char)) : List Char :=
  bracket.opening :: ([','].intercalate parts ++ [bracket.closing])

end Bracket

inductive IsValue : List Char → Prop where
  | null : IsValue ['n', 'u', 'l', 'l']
  | yes : IsValue ['t', 'r', 'u', 'e']
  | no : IsValue ['f', 'a', 'l', 's', 'e']
  | positive {number : List Char} (isUnsigned : IsUnsigned number) : IsValue number
  | negative {number : List Char} (isUnsigned : IsUnsigned number) : IsValue ('-' :: number)
  | string {body : List Char} (isBody : IsBody body) : IsValue ('"' :: (body ++ ['"']))
  | empty (bracket : Bracket) {blank : List Char} (blankIs : IsBlank blank) :
      IsValue (bracket.enclose [blank])
  | array {items : List Item} (nonempty : items ≠ [])
      (spaced : ∀ item ∈ items, item.IsSpaced) (values : ∀ item ∈ items, IsValue item.value) :
      IsValue (Bracket.array.enclose (items.map Item.text))
  | object {members : List Member} (nonempty : members ≠ [])
      (spaced : ∀ member ∈ members, member.IsSpaced)
      (names : ∀ member ∈ members, IsBody member.name)
      (values : ∀ member ∈ members, IsValue member.item.value) :
      IsValue (Bracket.object.enclose (members.map Member.text))

/-- A value is passed over, whatever can follow it, with fuel in proportion to its length. -/
structure Skips (value : List Char) : Prop where
  starts : Starts value
  skip : ∀ fuel rest, 2 * value.length + 2 ≤ fuel → Ends rest →
    skipValueFrom fuel (value ++ rest) = .ok rest

/-- A part between brackets is passed over, and then whatever follows it is looked at. -/
structure Bracket.Passes (bracket : Bracket) (part : List Char) : Prop where
  starts : ∃ blank value, IsBlank blank ∧ Starts value ∧ part = blank ++ value
  skip : ∀ fuel rest, 2 * part.length + 2 ≤ fuel → Ends rest →
    skipItem (fuel + 1) bracket (part ++ rest) = skipMore fuel bracket rest

theorem skipValueFrom_blank (blankIs : IsBlank blank) (fuel : Nat) (rest : List Char) :
    skipValueFrom fuel (blank ++ rest) = skipValueFrom fuel rest := by
  cases fuel with
  | zero => simp only [skipValueFrom]
  | succ fuel => simp only [skipValueFrom, skipSpace_append blankIs]

theorem skipName_blank (blankIs : IsBlank blank) (rest : List Char) :
    skipName (blank ++ rest) = skipName rest := by
  simp only [skipName, skipSpace_append blankIs]

theorem skipItem_blank (blankIs : IsBlank blank) (fuel : Nat) (bracket : Bracket)
    (rest : List Char) : skipItem fuel bracket (blank ++ rest) = skipItem fuel bracket rest := by
  cases fuel with
  | zero => simp only [skipItem]
  | succ fuel =>
      cases bracket with
      | array => simp only [skipItem, skipValueFrom_blank blankIs]
      | object => simp only [skipItem, skipName_blank blankIs]

theorem skipMore_blank (blankIs : IsBlank blank) (fuel : Nat) (bracket : Bracket)
    (rest : List Char) : skipMore fuel bracket (blank ++ rest) = skipMore fuel bracket rest := by
  cases fuel with
  | zero => simp only [skipMore]
  | succ fuel => simp only [skipMore, skipSpace_append blankIs]

namespace Bracket

variable {bracket : Bracket} {parts : List (List Char)}

theorem closing_mem (bracket : Bracket) : bracket.closing ∈ [',', ']', '\x7d'] := by
  cases bracket <;> decide

theorem closing_ne_comma (bracket : Bracket) : bracket.closing ≠ ',' := by
  cases bracket <;> decide

theorem skipSpace_closing (bracket : Bracket) (rest : List Char) :
    skipSpace (bracket.closing :: rest) = bracket.closing :: rest := by
  cases bracket <;> rfl

theorem ends_parts (bracket : Bracket) (parts : List (List Char)) (rest : List Char) :
    Ends (parts.flatMap (',' :: ·) ++ bracket.closing :: rest) := by
  cases parts with
  | nil => exact .of_mark bracket.closing_mem rest
  | cons part parts => exact .of_mark (by simp) _

/-- Each further part takes two units of fuel for itself, besides what its value takes. -/
theorem skipMore_parts (passes : ∀ part ∈ parts, bracket.Passes part) {fuel : Nat}
    (rest : List Char) (enough : 2 * (parts.flatMap (',' :: ·)).length + 3 ≤ fuel) :
    skipMore fuel bracket (parts.flatMap (',' :: ·) ++ bracket.closing :: rest) = .ok rest := by
  induction parts generalizing fuel with
  | nil =>
      obtain ⟨fuel, rfl⟩ : ∃ left, fuel = left + 1 := ⟨fuel - 1, by omega⟩
      rw [List.flatMap_nil, List.nil_append, skipMore, bracket.skipSpace_closing]
      simp only [if_neg bracket.closing_ne_comma, if_true]
  | cons part parts ih =>
      rw [List.flatMap_cons, List.cons_append, List.length_cons, List.length_append] at enough
      obtain ⟨fuel, rfl⟩ : ∃ left, fuel = left + 2 := ⟨fuel - 2, by omega⟩
      have first := (passes part List.mem_cons_self).skip fuel _ (by omega)
        (bracket.ends_parts parts rest)
      have later : ∀ other ∈ parts, bracket.Passes other :=
        fun other otherMem => passes other (List.mem_cons_of_mem _ otherMem)
      have enoughLater : 2 * (parts.flatMap (',' :: ·)).length + 3 ≤ fuel := by omega
      rw [List.flatMap_cons, List.cons_append, List.cons_append, List.append_assoc, skipMore,
        skipSpace_of_not_isSpace (by decide)]
      simp only [if_true]
      rw [first, ih later enoughLater]

theorem skipItem_parts {part : List Char} (passes : ∀ other ∈ part :: parts, bracket.Passes other)
    {fuel : Nat} (rest : List Char)
    (enough : 2 * ([','].intercalate (part :: parts)).length + 4 ≤ fuel) :
    skipItem fuel bracket ([','].intercalate (part :: parts) ++ bracket.closing :: rest) =
      .ok rest := by
  rw [intercalate_cons, List.length_append] at enough
  obtain ⟨fuel, rfl⟩ : ∃ left, fuel = left + 1 := ⟨fuel - 1, by omega⟩
  have first := (passes part List.mem_cons_self).skip fuel _ (by omega)
    (bracket.ends_parts parts rest)
  have later : ∀ other ∈ parts, bracket.Passes other :=
    fun other otherMem => passes other (List.mem_cons_of_mem _ otherMem)
  rw [intercalate_cons, List.append_assoc, first]
  exact skipMore_parts later rest (by omega)

theorem skipFirst_parts {part : List Char}
    (passes : ∀ other ∈ part :: parts, bracket.Passes other) {fuel : Nat} (rest : List Char)
    (enough : 2 * ([','].intercalate (part :: parts)).length + 5 ≤ fuel) :
    skipFirst fuel bracket ([','].intercalate (part :: parts) ++ bracket.closing :: rest) =
      .ok rest := by
  obtain ⟨fuel, rfl⟩ : ∃ left, fuel = left + 1 := ⟨fuel - 1, by omega⟩
  have item := skipItem_parts passes rest (Nat.le_of_succ_le_succ enough)
  rcases (passes part List.mem_cons_self).starts with
    ⟨blank, value, blankIs, ⟨character, others, rfl, dark, noMark⟩, rfl⟩
  have different : character ≠ bracket.closing := by
    rintro rfl
    exact noMark bracket.closing_mem
  rw [intercalate_cons, List.append_assoc, List.append_assoc, List.cons_append] at item ⊢
  rw [skipItem_blank blankIs] at item
  rw [skipFirst, skipSpace_append blankIs, skipSpace_of_not_isSpace dark]
  simp only [if_neg different, item]

theorem enclose_append (bracket : Bracket) (parts : List (List Char)) (rest : List Char) :
    bracket.enclose parts ++ rest =
      bracket.opening :: ([','].intercalate parts ++ bracket.closing :: rest) := by
  simp [enclose]

theorem starts_enclose (bracket : Bracket) (parts : List (List Char)) :
    Starts (bracket.enclose parts) := by
  refine ⟨bracket.opening, _, rfl, ?_⟩
  cases bracket <;> decide

theorem skipValueFrom_opening (bracket : Bracket) (fuel : Nat) (rest : List Char) :
    skipValueFrom (fuel + 1) (bracket.opening :: rest) = skipFirst fuel bracket rest := by
  cases bracket <;> rfl

theorem skips_empty (bracket : Bracket) (blankIs : IsBlank blank) :
    Skips (bracket.enclose [blank]) := by
  refine ⟨bracket.starts_enclose _, ?_⟩
  intro fuel rest enough _
  obtain ⟨fuel, rfl⟩ : ∃ left, fuel = left + 2 := ⟨fuel - 2, by omega⟩
  rw [enclose_append, List.intercalate_singleton, skipValueFrom_opening, skipFirst,
    skipSpace_append blankIs, skipSpace_closing]
  simp only [if_true]

theorem skips_parts (passes : ∀ part ∈ parts, bracket.Passes part) (nonempty : parts ≠ []) :
    Skips (bracket.enclose parts) := by
  refine ⟨bracket.starts_enclose parts, ?_⟩
  intro fuel rest enough _
  rcases List.exists_cons_of_ne_nil nonempty with ⟨part, others, rfl⟩
  rw [enclose, List.length_cons, List.length_append, List.length_singleton] at enough
  obtain ⟨fuel, rfl⟩ : ∃ left, fuel = left + 1 := ⟨fuel - 1, by omega⟩
  rw [enclose_append, skipValueFrom_opening]
  exact skipFirst_parts passes rest (by omega)

end Bracket

theorem skipValueFrom_item {item : Item} (spaced : item.IsSpaced) (skips : Skips item.value)
    (fuel : Nat) (rest : List Char) (enough : 2 * item.text.length + 2 ≤ fuel) (ends : Ends rest) :
    skipValueFrom fuel (item.text ++ rest) = .ok (item.after ++ rest) := by
  rw [Item.text, List.length_append, List.length_append] at enough
  rw [Item.text_append, skipValueFrom_blank spaced.before]
  exact skips.skip fuel _ (by omega) (ends.blank_append spaced.after)

theorem passes_item {item : Item} (spaced : item.IsSpaced) (skips : Skips item.value) :
    Bracket.array.Passes item.text := by
  constructor
  · rcases skips.starts with ⟨character, others, valueEq, dark, noMark⟩
    exact ⟨item.before, _, spaced.before, ⟨character, others ++ item.after, rfl, dark, noMark⟩,
      by rw [Item.text, valueEq, List.cons_append]⟩
  · intro fuel rest enough ends
    rw [skipItem, skipValueFrom_item spaced skips fuel rest enough ends]
    exact skipMore_blank spaced.after fuel .array rest

theorem skipName_append {middle : List Char} (isBody : IsBody body) (middleIs : IsBlank middle)
    (rest : List Char) :
    skipName ('"' :: (body ++ '"' :: (middle ++ ':' :: rest))) = .ok rest := by
  rw [skipName, skipSpace_of_not_isSpace (by decide)]
  simp only [skipString_append isBody, bind, Except.bind, skipSpace_append middleIs,
    skipSpace_of_not_isSpace (by decide : isSpace ':' = false)]
  rfl

theorem passes_member {member : Member} (spaced : member.IsSpaced) (isBody : IsBody member.name)
    (skips : Skips member.item.value) : Bracket.object.Passes member.text := by
  constructor
  · exact ⟨member.before, _, spaced.before, ⟨'"', _, rfl, by decide, by decide⟩, rfl⟩
  · intro fuel rest enough ends
    have named : skipName (member.text ++ rest) = .ok (member.item.text ++ rest) := by
      rw [Member.text_append, skipName_blank spaced.before]
      exact skipName_append isBody spaced.middle _
    have shorter : member.item.text.length ≤ member.text.length := by
      simp only [Member.text, List.length_append, List.length_cons]
      omega
    rw [skipItem, named]
    change (do
      let rest ← skipValueFrom fuel (member.item.text ++ rest)
      skipMore fuel .object rest) = _
    rw [skipValueFrom_item spaced.item skips fuel rest (by omega) ends]
    exact skipMore_blank spaced.item.after fuel .object rest

theorem IsUnsigned.exists_cons {number : List Char} (isUnsigned : IsUnsigned number) :
    ∃ first others, number = first :: others ∧ isDigit first = true := by
  rcases isUnsigned with ⟨isWhole, isFraction, isExponent⟩
  rcases isWhole.1.exists_cons with ⟨first, others, rfl, firstIs⟩
  exact ⟨first, _, rfl, firstIs⟩

theorem starts_of_isDigit {first : Char} (firstIs : isDigit first = true) (others : List Char) :
    Starts (first :: others) := by
  have unmarked : first ∉ [' ', '\t', '\n', '\r', ',', ']', '\x7d'] := by
    intro mark
    cases firstIs.symm.trans (not_isDigit_of_mark mark)
  refine ⟨first, others, rfl, ?_, ?_⟩
  · rw [Bool.eq_false_iff, ne_eq, isSpace_iff]
    exact fun space => unmarked (List.mem_append_left [',', ']', '\x7d'] space)
  · exact fun mark => unmarked (List.mem_append_right [' ', '\t', '\n', '\r'] mark)

theorem skipValueFrom_of_isDigit {first : Char} (firstIs : isDigit first = true)
    (others : List Char) (fuel : Nat) :
    skipValueFrom (fuel + 1) (first :: others) = skipNumber (first :: others) := by
  have noSpace := (starts_of_isDigit firstIs others).skipSpace_eq []
  rw [List.append_nil] at noSpace
  rw [skipValueFrom, noSpace]
  split
  case h_9 =>
    rename_i same
    cases same
    rw [if_pos firstIs]
  -- No digit is the first character of a value of another kind.
  all_goals
    rename_i same
    cases same <;> cases firstIs

theorem skips_positive {number : List Char} (isUnsigned : IsUnsigned number) : Skips number := by
  rcases isUnsigned.exists_cons with ⟨first, others, numberEq, firstIs⟩
  constructor
  · rw [numberEq]
    exact starts_of_isDigit firstIs others
  · intro fuel rest enough ends
    obtain ⟨fuel, rfl⟩ : ∃ left, fuel = left + 1 := ⟨fuel - 1, by omega⟩
    have skipped := skipNumber_append isUnsigned ends
    rw [numberEq, List.cons_append] at skipped ⊢
    rw [skipValueFrom_of_isDigit firstIs, skipped]

/-- A value whose first character tells its kind is passed over with the least of fuel. -/
theorem skips_marked {first : Char} {others : List Char} (dark : isSpace first = false)
    (noMark : first ∉ [',', ']', '\x7d'])
    (skip : ∀ fuel rest, Ends rest →
      skipValueFrom (fuel + 1) (first :: (others ++ rest)) = .ok rest) :
    Skips (first :: others) := by
  refine ⟨⟨first, others, rfl, dark, noMark⟩, ?_⟩
  intro fuel rest enough ends
  obtain ⟨fuel, rfl⟩ : ∃ left, fuel = left + 1 := ⟨fuel - 1, by omega⟩
  exact skip fuel rest ends

/-- A value of any kind and depth is passed over. -/
theorem skips_of_isValue (isValue : IsValue value) : Skips value := by
  induction isValue with
  | null => exact skips_marked (by decide) (by decide) fun _ _ _ => rfl
  | yes => exact skips_marked (by decide) (by decide) fun _ _ _ => rfl
  | no => exact skips_marked (by decide) (by decide) fun _ _ _ => rfl
  | positive isUnsigned => exact skips_positive isUnsigned
  | negative isUnsigned =>
      refine skips_marked (by decide) (by decide) ?_
      intro fuel rest ends
      exact skipNumber_append isUnsigned ends
  | string isBody =>
      refine skips_marked (by decide) (by decide) ?_
      intro fuel rest _
      rw [List.append_assoc, List.singleton_append]
      exact skipString_append isBody rest
  | empty bracket blankIs => exact bracket.skips_empty blankIs
  | array nonempty spaced values ih =>
      refine Bracket.skips_parts ?_ (by simpa using nonempty)
      intro part partMem
      rcases List.mem_map.mp partMem with ⟨item, itemMem, rfl⟩
      exact passes_item (spaced item itemMem) (ih item itemMem)
  | object nonempty spaced names values ih =>
      refine Bracket.skips_parts ?_ (by simpa using nonempty)
      intro part partMem
      rcases List.mem_map.mp partMem with ⟨member, memberMem, rfl⟩
      exact passes_member (spaced member memberMem) (names member memberMem) (ih member memberMem)

end Json

end Thumbnails
