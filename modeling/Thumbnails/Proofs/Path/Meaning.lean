import Mathlib.Data.List.Basic
import Thumbnails.Path.Normal

/-!
# What a path means

Without looking at any file, a path says where to go from a base directory. It is read segment by
segment: names lead down, `..` leads up unless there is nothing above, and a separator at the
beginning leads to the root (`Path.meaning`).

A normal form means the same as the components that it was made of, since each component changes
both in the same way (`NormalForm.meaning_step`). Different normal forms do not mean the same: from
a base of equal names, more climbing leaves fewer of these names. So normal paths are unique
representatives of what paths mean (`Path.normalizesExactly`).
-/

namespace Thumbnails

/-- Where a segment leads from a directory. -/
def afterSegment (directory : List EntryName) (segment : EntryName) : List EntryName :=
  if segment = [] ∨ segment = [dot] then directory
  else if segment = [dot, dot] then directory.dropLast
  else directory ++ [segment]

/-- Where a path leads from a base directory. -/
def Path.meaning (path : Path) (base : List EntryName) : List EntryName :=
  (segments path.bytes).foldl afterSegment (if path.isAbsolute then [] else base)

/-- Where a component leads from a directory. -/
def Component.after (directory : List EntryName) : Component → List EntryName
  | .root => []
  | .current => directory
  | .parent => directory.dropLast
  | .normal name => directory ++ [name]

/-- Where a normal form leads from a base directory. -/
def NormalForm.meaning (form : NormalForm) (base : List EntryName) : List EntryName :=
  if form.absolute then form.names
  else base.take (base.length - form.climbs) ++ form.names

/-- The bytes of a path in which nothing can be left out. -/
inductive IsNormalText : List UInt8 → Prop
  | root : IsNormalText [slash]
  | here : IsNormalText [dot]
  | absolute {names : List EntryName} (nonempty : names ≠ [])
      (plain : ∀ name ∈ names, IsPlainName name) : IsNormalText (slash :: joinSegments names)
  | relative (climbs : Nat) {names : List EntryName} (moves : climbs ≠ 0 ∨ names ≠ [])
      (plain : ∀ name ∈ names, IsPlainName name) :
      IsNormalText (joinSegments (List.replicate climbs [dot, dot] ++ names))

theorem afterSegment_eq (directory : List EntryName) (segment : EntryName) :
    afterSegment directory segment =
      ((Component.ofSegment? segment).map (Component.after directory)).getD directory := by
  unfold afterSegment Component.ofSegment?
  split
  · rfl
  · split <;> rfl

theorem foldl_afterSegment (parts : List EntryName) (directory : List EntryName) :
    parts.foldl afterSegment directory =
      (parts.filterMap Component.ofSegment?).foldl Component.after directory := by
  induction parts generalizing directory with
  | nil => rfl
  | cons segment parts inductionHypothesis =>
      rw [List.foldl_cons, inductionHypothesis, afterSegment_eq, List.filterMap_cons]
      cases Component.ofSegment? segment <;> rfl

namespace Path

/-- The components of a path are those of its segments, behind the root or behind a leading `.`. -/
theorem components_eq (path : Path) : path.components =
    (if path.isAbsolute then [.root]
      else if (segments path.bytes).head? = some [dot] then [.current] else []) ++
        (segments path.bytes).filterMap Component.ofSegment? := by
  have void : ∀ parts : List EntryName, ([] :: parts).filterMap Component.ofSegment? =
      parts.filterMap Component.ofSegment? := fun parts => by simp [Component.ofSegment?]
  rcases path with ⟨_ | ⟨byte, rest⟩⟩
  · rfl
  by_cases absolute : byte = slash
  · subst absolute
    have cut : segments (slash :: rest) = [] :: segments rest := by simp [segments]
    rw [cut, void]
    simp [components, opening, isAbsolute]
  · rcases cut : segments (byte :: rest) with _ | ⟨first, others⟩
    · exact absurd cut (segments_ne_nil _)
    by_cases current : first = [dot]
    · subst current
      simp [components, opening, isAbsolute, absolute, cut, Component.ofSegment?]
    · simp [components, opening, isAbsolute, absolute, cut, current]

/-- Components say as much about where a path leads as its bytes do. -/
theorem meaning_eq_foldl (path : Path) (base : List EntryName) :
    path.meaning base = path.components.foldl Component.after base := by
  rw [components_eq, List.foldl_append, ← foldl_afterSegment, meaning]
  congr 1
  split
  · rfl
  · split <;> rfl

/-- A path has a root component if it begins with a separator. -/
theorem root_mem_components (path : Path) :
    Component.root ∈ path.components ↔ path.isAbsolute = true := by
  have noRoot : ∀ parts : List EntryName,
      Component.root ∉ parts.filterMap Component.ofSegment? := by
    intro parts rootMem
    rcases List.mem_filterMap.mp rootMem with ⟨segment, _, read⟩
    unfold Component.ofSegment? at read
    split at read
    · cases read
    · split at read <;> cases read
  rw [components_eq, List.mem_append, or_iff_left (noRoot _)]
  split
  · rename_i absolute
    simp [absolute]
  · rename_i relative
    split <;> simp [relative]

end Path

namespace NormalForm

variable {form left right : NormalForm}

/-- A component leads on from where a normal form leads. -/
theorem meaning_step (form : NormalForm) (component : Component) (base : List EntryName) :
    (form.step component).meaning base = component.after (form.meaning base) := by
  rcases form with ⟨absolute, climbs, names⟩
  cases component with
  | root => rfl
  | current => rfl
  | normal name => cases absolute <;> simp [step, meaning, Component.after]
  | parent =>
      by_cases empty : names = []
      · subst empty
        cases absolute with
        | true => rfl
        | false =>
            simp only [step, meaning, Component.after, ne_eq, not_true_eq_false, if_false,
              Bool.false_eq_true, List.append_nil]
            rw [List.dropLast_eq_take, List.take_take, List.length_take]
            congr 1
            omega
      · cases absolute <;>
          simp [step, meaning, Component.after, empty, List.dropLast_append_of_ne_nil]

theorem meaning_foldl_step (form : NormalForm) (components : List Component)
    (base : List EntryName) : (components.foldl step form).meaning base =
      components.foldl Component.after (form.meaning base) := by
  induction components generalizing form with
  | nil => rfl
  | cons component components inductionHypothesis =>
      rw [List.foldl_cons, List.foldl_cons, inductionHypothesis, meaning_step]

theorem absolute_step (form : NormalForm) (component : Component) :
    (form.step component).absolute = true ↔ form.absolute = true ∨ component = .root := by
  cases component with
  | root => simp [step]
  | current => simp [step]
  | normal name => simp [step]
  | parent =>
      simp only [step, reduceCtorEq, or_false]
      split
      · rfl
      · split <;> rfl

theorem absolute_foldl_step (form : NormalForm) (components : List Component) :
    (components.foldl step form).absolute = true ↔
      form.absolute = true ∨ Component.root ∈ components := by
  induction components generalizing form with
  | nil => simp
  | cons component components inductionHypothesis =>
      rw [List.foldl_cons, inductionHypothesis, absolute_step, List.mem_cons, or_assoc,
        @eq_comm _ component]

theorem meaning_replicate (climbs more : Nat) (names : List EntryName) (name : EntryName) :
    (⟨false, climbs, names⟩ : NormalForm).meaning (List.replicate (climbs + more) name) =
      List.replicate more name ++ names := by
  simp [meaning]

/-- More climbing cannot be made up for by names: they would have to be those of any base. -/
theorem eq_of_climbs_add {climbs more : Nat} {names names' : List EntryName}
    (same : ∀ base : List EntryName, (∀ name ∈ base, IsPlainName name) →
      (⟨false, climbs, names⟩ : NormalForm).meaning base =
        (⟨false, climbs + more, names'⟩ : NormalForm).meaning base) :
    more = 0 ∧ names = names' := by
  have names_eq : ∀ name, IsPlainName name → List.replicate more name ++ names = names' := by
    intro name plain
    have led := same (List.replicate (climbs + more) name)
      fun other otherMem => (List.mem_replicate.mp otherMem).2 ▸ plain
    rw [meaning_replicate] at led
    have whole := meaning_replicate (climbs + more) 0 names' name
    rw [Nat.add_zero, ← led] at whole
    exact whole
  have first := names_eq [0x61] (by decide)
  have second := names_eq [0x62] (by decide)
  cases more with
  | zero => exact ⟨rfl, first⟩
  | succ more =>
      rw [← second, List.replicate_succ, List.replicate_succ] at first
      cases first

/-- Normal forms of one kind that mean the same are the same. -/
theorem eq_of_meaning_eq (leftProper : left.Proper) (rightProper : right.Proper)
    (kinds : left.absolute = right.absolute)
    (same : ∀ base : List EntryName, (∀ name ∈ base, IsPlainName name) →
      left.meaning base = right.meaning base) : left = right := by
  rcases left with ⟨absolute, climbs, names⟩
  rcases right with ⟨absolute', climbs', names'⟩
  obtain rfl : absolute = absolute' := kinds
  cases absolute with
  | true =>
      obtain rfl : climbs = 0 := leftProper.grounded rfl
      obtain rfl : climbs' = 0 := rightProper.grounded rfl
      obtain rfl : names = names' := same [] (by simp)
      rfl
  | false =>
      rcases Nat.le_total climbs climbs' with le | le
      · obtain ⟨more, rfl⟩ := Nat.exists_eq_add_of_le le
        obtain ⟨rfl, rfl⟩ := eq_of_climbs_add same
        rfl
      · obtain ⟨more, rfl⟩ := Nat.exists_eq_add_of_le le
        obtain ⟨rfl, rfl⟩ := eq_of_climbs_add fun base plain => (same base plain).symm
        rfl

end NormalForm

/-- Where no segment is empty, no separator is idle. -/
theorem separators_of_nil_not_mem {bytes : List UInt8} (full : [] ∉ segments bytes) :
    bytes.head? ≠ some slash ∧ bytes.getLast? ≠ some slash ∧ ¬[slash, slash] <:+: bytes := by
  refine ⟨?_, ?_, ?_⟩
  · intro opened
    rcases List.head?_eq_some_iff.mp opened with ⟨rest, rfl⟩
    exact full (by simp [segments])
  · intro closed
    rcases List.getLast?_eq_some_iff.mp closed with ⟨front, rfl⟩
    exact full (by simp [segments_append_of_slash, segments])
  · rintro ⟨front, back, rfl⟩
    rw [List.append_assoc] at full
    exact full (by
      change [] ∈ segments (front ++ slash :: slash :: back)
      simp [segments_append_of_slash, segments])

theorem climbs_append_ne_nil_iff {climbs : Nat} {names : List EntryName} :
    List.replicate climbs [dot, dot] ++ names ≠ [] ↔ climbs ≠ 0 ∨ names ≠ [] := by
  simp [List.append_eq_nil_iff, ← not_and_or]

theorem nil_not_mem_segments_joinSegments {parts : List EntryName} (nonempty : parts ≠ [])
    (full : ∀ part ∈ parts, part ≠ [] ∧ slash ∉ part) : [] ∉ segments (joinSegments parts) := by
  rw [segments_joinSegments nonempty fun part partMem => (full part partMem).2]
  exact fun empty => (full [] empty).1 rfl

namespace IsNormalText

variable {bytes : List UInt8}

/-- Every normal text is that of one normal form. -/
theorem exists_form (text : IsNormalText bytes) :
    ∃ form : NormalForm, form.Proper ∧ form.path = ⟨bytes⟩ := by
  cases text with
  | root => exact ⟨⟨true, 0, []⟩, ⟨by simp, by simp⟩, rfl⟩
  | here => exact ⟨⟨false, 0, []⟩, ⟨by simp, by simp⟩, rfl⟩
  | @absolute names nonempty plain =>
      exact ⟨⟨true, 0, names⟩, ⟨plain, by simp⟩, by simp [NormalForm.path, NormalForm.segments]⟩
  | @relative climbs names moves plain =>
      refine ⟨⟨false, climbs, names⟩, ⟨plain, by simp⟩, ?_⟩
      have moving := climbs_append_ne_nil_iff.mpr moves
      simp only [NormalForm.path, NormalForm.segments, Bool.false_eq_true, if_false, moving]

/-- No separator is doubled, and only that of the root stands at the end. -/
theorem separators (text : IsNormalText bytes) :
    ¬[slash, slash] <:+: bytes ∧ (bytes = [slash] ∨ bytes.getLast? ≠ some slash) := by
  cases text with
  | root => exact ⟨by decide, Or.inl rfl⟩
  | here => exact ⟨by decide, Or.inr (by decide)⟩
  | @absolute names nonempty plain =>
      have full : [] ∉ segments (joinSegments names) :=
        nil_not_mem_segments_joinSegments nonempty fun name nameMem =>
          ⟨(plain name nameMem).1, (plain name nameMem).2.2.2⟩
      have inhabited : joinSegments names ≠ [] := by
        intro empty
        exact full (by simp [empty, segments])
      rcases separators_of_nil_not_mem full with ⟨opened, closed, undoubled⟩
      refine ⟨?_, Or.inr ?_⟩
      · rw [List.infix_cons_iff, List.cons_prefix_cons, not_or]
        refine ⟨?_, undoubled⟩
        rintro ⟨-, rest, cut⟩
        exact opened (by rw [← cut]; rfl)
      · rwa [List.getLast?_cons_of_ne_nil inhabited]
  | @relative climbs names moves plain =>
      have moving := climbs_append_ne_nil_iff.mpr moves
      have full : [] ∉ segments (joinSegments (List.replicate climbs [dot, dot] ++ names)) := by
        apply nil_not_mem_segments_joinSegments moving
        intro part partMem
        rcases List.mem_append.mp partMem with climb | nameMem
        · rw [(List.mem_replicate.mp climb).2]
          decide
        · exact ⟨(plain part nameMem).1, (plain part nameMem).2.2.2⟩
      rcases separators_of_nil_not_mem full with ⟨_, closed, undoubled⟩
      exact ⟨undoubled, Or.inr closed⟩

end IsNormalText

namespace NormalForm

variable {form : NormalForm}

theorem isNormalText_path (proper : form.Proper) : IsNormalText form.path.bytes := by
  rcases form with ⟨absolute, climbs, names⟩
  cases absolute with
  | true =>
      obtain rfl : climbs = 0 := proper.grounded rfl
      by_cases empty : names = []
      · subst empty
        exact .root
      · simpa [path, segments] using IsNormalText.absolute empty proper.plain
  | false =>
      by_cases still : climbs = 0 ∧ names = []
      · obtain ⟨rfl, rfl⟩ := still
        exact .here
      · have moves : climbs ≠ 0 ∨ names ≠ [] := not_and_or.mp still
        have moving := climbs_append_ne_nil_iff.mpr moves
        simpa only [path, segments, Bool.false_eq_true, if_false, moving] using
          IsNormalText.relative climbs moves proper.plain

end NormalForm

namespace Path

variable {left right : Path}

theorem meaning_normalForm (path : Path) (base : List EntryName) :
    path.normalForm.meaning base = path.meaning base := by
  rw [normalForm, NormalForm.meaning_foldl_step, meaning_eq_foldl]
  simp [NormalForm.meaning, NormalForm.here]

theorem absolute_normalForm (path : Path) : path.normalForm.absolute = path.isAbsolute := by
  rw [Bool.eq_iff_iff, normalForm, NormalForm.absolute_foldl_step, root_mem_components]
  simp [NormalForm.here]

theorem meaning_normalize (path : Path) (base : List EntryName) :
    path.normalize.meaning base = path.meaning base := by
  rw [← meaning_normalForm, normalForm_normalize, meaning_normalForm]

theorem isAbsolute_normalize (path : Path) : path.normalize.isAbsolute = path.isAbsolute := by
  rw [← absolute_normalForm, normalForm_normalize, absolute_normalForm]

/-- Paths of one kind that mean the same are normalized to the same path. -/
theorem normalize_eq_of_meaning_eq (kinds : left.isAbsolute = right.isAbsolute)
    (same : ∀ base : List EntryName, (∀ name ∈ base, IsPlainName name) →
      left.meaning base = right.meaning base) : left.normalize = right.normalize := by
  rw [normalize, normalize]
  congr 1
  apply NormalForm.eq_of_meaning_eq left.proper_normalForm right.proper_normalForm
  · rw [absolute_normalForm, absolute_normalForm, kinds]
  · intro base plain
    rw [meaning_normalForm, meaning_normalForm, same base plain]

/-- Normal paths are those that are written without anything superfluous. -/
theorem normalize_eq_self_iff (path : Path) : path.normalize = path ↔ IsNormalText path.bytes := by
  constructor
  · intro normal
    rw [← normal]
    exact NormalForm.isNormalText_path path.proper_normalForm
  · intro text
    rcases text.exists_form with ⟨form, proper, pathEq⟩
    have formEq : form.path = path := pathEq
    rw [normalize, ← formEq, NormalForm.normalForm_path proper]

/-- What the normalization of paths does to any two of them. -/
structure NormalizesExactly (left right : Path) : Prop where
  same_iff : left.normalize = right.normalize ↔
    left.isAbsolute = right.isAbsolute ∧ ∀ base, left.meaning base = right.meaning base
  /-- A difference shows at a base that a path can lead to. -/
  different : left.isAbsolute = right.isAbsolute → left.normalize ≠ right.normalize →
    ∃ base, (∀ name ∈ base, IsPlainName name) ∧ left.meaning base ≠ right.meaning base
  meaning : ∀ base, left.normalize.meaning base = left.meaning base
  isAbsolute : left.normalize.isAbsolute = left.isAbsolute
  idempotent : left.normalize.normalize = left.normalize
  written : IsNormalText left.normalize.bytes
  separators : ¬[slash, slash] <:+: left.normalize.bytes ∧
    (left.normalize.bytes = [slash] ∨ left.normalize.bytes.getLast? ≠ some slash)
  /-- There are no other texts of normal paths. -/
  unchanged_iff : left.normalize = left ↔ IsNormalText left.bytes

theorem normalizesExactly (left right : Path) : left.NormalizesExactly right := by
  have written : IsNormalText left.normalize.bytes :=
    left.normalize.normalize_eq_self_iff.mp left.normalize_normalize
  refine ⟨⟨?_, ?_⟩, ?_, left.meaning_normalize, left.isAbsolute_normalize, left.normalize_normalize,
    written, written.separators, left.normalize_eq_self_iff⟩
  · intro same
    refine ⟨?_, ?_⟩
    · rw [← left.isAbsolute_normalize, same, right.isAbsolute_normalize]
    · intro base
      rw [← left.meaning_normalize, same, right.meaning_normalize]
  · rintro ⟨kinds, same⟩
    exact normalize_eq_of_meaning_eq kinds fun base _ => same base
  · intro kinds different
    by_contra alike
    push Not at alike
    exact different (normalize_eq_of_meaning_eq kinds alike)

end Path

end Thumbnails
