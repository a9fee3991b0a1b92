import Thumbnails.Path.Basic

/-!
# Normal forms of paths

Read lexically, a path says: start at the root or at a base directory, climb some levels, then
descend through names. A `NormalForm` holds just that. `Path.normalForm` reads it off the
components, `NormalForm.path` writes it down, and normalizing a path is the one after the other.

The statements here say that a normal form that was written down is read back
(`normalForm_path`), so normalizing twice is normalizing once (`normalize_normalize`), and that the
components decide the normal form (`eq_of_components_eq`).
-/

namespace Thumbnails

/-- Where a path leads: from the root or from a base, up some levels, down through names. -/
structure NormalForm where
  absolute : Bool
  climbs : Nat
  names : List EntryName
  deriving DecidableEq, Repr

namespace NormalForm

/-- The place before the first component. -/
def here : NormalForm :=
  ⟨false, 0, []⟩

/-- The place that one more component leads to. There is nothing above the root. -/
def step (form : NormalForm) : Component → NormalForm
  | .root => ⟨true, 0, []⟩
  | .current => form
  | .parent =>
    if form.names ≠ [] then { form with names := form.names.dropLast }
    else if form.absolute then form
    else { form with climbs := form.climbs + 1 }
  | .normal name => { form with names := form.names ++ [name] }

def components (form : NormalForm) : List Component :=
  (if form.absolute then [.root] else []) ++ List.replicate form.climbs .parent ++
    form.names.map .normal

def segments (form : NormalForm) : List EntryName :=
  List.replicate form.climbs [dot, dot] ++ form.names

/-- A place written down. The base itself is `.`. -/
def path (form : NormalForm) : Path :=
  if form.absolute then ⟨slash :: joinSegments form.segments⟩
  else if form.segments = [] then ⟨[dot]⟩
  else ⟨joinSegments form.segments⟩

/-- A form is proper if its names are plain and it does not climb above the root. -/
structure Proper (form : NormalForm) : Prop where
  plain : ∀ name ∈ form.names, IsPlainName name
  grounded : form.absolute = true → form.climbs = 0

end NormalForm

def Path.normalForm (path : Path) : NormalForm :=
  path.components.foldl NormalForm.step NormalForm.here

def Path.normalize (path : Path) : Path :=
  path.normalForm.path

theorem segments_ne_nil (bytes : List UInt8) : segments bytes ≠ [] := by
  cases bytes with
  | nil => simp [segments]
  | cons byte rest =>
    simp only [segments]
    split
    · simp
    · split <;> simp

theorem segments_of_no_slash {bytes : List UInt8} (free : slash ∉ bytes) :
    segments bytes = [bytes] := by
  induction bytes with
  | nil => rfl
  | cons byte rest inductionHypothesis =>
    simp only [List.mem_cons, not_or] at free
    simp [segments, inductionHypothesis free.2, Ne.symm free.1]

theorem segments_append_slash {segment : EntryName} (free : slash ∉ segment)
    (rest : List UInt8) : segments (segment ++ slash :: rest) = segment :: segments rest := by
  induction segment with
  | nil => simp [segments]
  | cons byte segment inductionHypothesis =>
    simp only [List.mem_cons, not_or] at free
    simp [segments, inductionHypothesis free.2, Ne.symm free.1]

/-- A separator cuts the segments wherever it stands. -/
theorem segments_append_of_slash (front back : List UInt8) :
    segments (front ++ slash :: back) = segments front ++ segments back := by
  induction front with
  | nil => simp [segments]
  | cons byte front inductionHypothesis =>
    simp only [List.cons_append, segments, inductionHypothesis]
    split
    · rfl
    · rcases nonempty : segments front with _ | ⟨first, others⟩
      · exact absurd nonempty (segments_ne_nil front)
      · rfl

theorem segments_free_of_slash {bytes : List UInt8} :
    ∀ segment ∈ segments bytes, slash ∉ segment := by
  induction bytes with
  | nil => simp [segments]
  | cons byte rest inductionHypothesis =>
    simp only [segments]
    split
    · simpa using inductionHypothesis
    · rename_i other
      split
      · simpa using Ne.symm other
      · rename_i first others split_eq
        rw [split_eq] at inductionHypothesis
        simp only [List.mem_cons, forall_eq_or_imp] at inductionHypothesis ⊢
        exact ⟨by simpa using ⟨Ne.symm other, inductionHypothesis.1⟩, inductionHypothesis.2⟩

theorem segments_joinSegments {parts : List EntryName} (nonempty : parts ≠ [])
    (free : ∀ part ∈ parts, slash ∉ part) : segments (joinSegments parts) = parts := by
  induction parts with
  | nil => exact absurd rfl nonempty
  | cons part others inductionHypothesis =>
    cases others with
    | nil => simpa [joinSegments] using segments_of_no_slash (free part (by simp))
    | cons next others =>
      simp only [joinSegments]
      rw [segments_append_slash (free part (by simp)),
        inductionHypothesis (by simp) (fun other other_mem => free other (by simp [other_mem]))]

theorem isPlainName_of_ofSegment? {segment name : EntryName} (free : slash ∉ segment)
    (read : Component.ofSegment? segment = some (.normal name)) : IsPlainName name := by
  unfold Component.ofSegment? at read
  split at read
  · simp at read
  · rename_i meaningful
    split at read
    · simp at read
    · rename_i notParent
      simp only [Option.some.injEq, Component.normal.injEq] at read
      subst read
      simp only [not_or] at meaningful
      exact ⟨meaningful.1, meaningful.2, notParent, free⟩

/-- What is too long for `..` is a name. -/
theorem isPlainName_of_length {name : EntryName} (long : 3 ≤ name.length) (free : slash ∉ name) :
    IsPlainName name := by
  refine ⟨?_, ?_, ?_, free⟩
  all_goals
    rintro rfl
    simp at long

theorem ofSegment?_of_isPlainName {name : EntryName} (plain : IsPlainName name) :
    Component.ofSegment? name = some (.normal name) := by
  unfold Component.ofSegment?
  rw [if_neg (by simp [plain.1, plain.2.1]), if_neg plain.2.2.1]

theorem Path.opening_free_of_slash (path : Path) :
    ∀ segment ∈ path.opening.2, slash ∉ segment := by
  unfold Path.opening
  split
  · simp
  · rename_i byte rest _
    split
    · exact segments_free_of_slash
    · have free : ∀ segment ∈ segments (byte :: rest), slash ∉ segment := segments_free_of_slash
      split
      · simp
      · rename_i first others split_eq
        rw [split_eq] at free
        split
        · exact fun segment segment_mem => free segment (List.mem_cons_of_mem _ segment_mem)
        · exact free

theorem Path.isPlainName_of_mem_components {path : Path} {name : EntryName}
    (name_mem : Component.normal name ∈ path.components) : IsPlainName name := by
  simp only [components, List.mem_append, List.mem_filterMap] at name_mem
  rcases name_mem with leading | ⟨segment, segment_mem, read⟩
  · exfalso
    revert leading
    unfold Path.opening
    split
    · simp
    · split
      · simp
      · split
        · simp
        · split <;> simp
  · exact isPlainName_of_ofSegment? (path.opening_free_of_slash segment segment_mem) read

namespace NormalForm

theorem Proper.here : NormalForm.here.Proper :=
  ⟨by simp [NormalForm.here], by simp [NormalForm.here]⟩

theorem Proper.step {form : NormalForm} (proper : form.Proper) {component : Component}
    (plain : ∀ name, component = .normal name → IsPlainName name) :
    (form.step component).Proper := by
  cases component with
  | root => exact ⟨by simp [NormalForm.step], by simp [NormalForm.step]⟩
  | current => exact proper
  | parent =>
    simp only [NormalForm.step]
    split
    · exact ⟨fun name name_mem => proper.plain name (List.dropLast_subset _ name_mem),
        proper.grounded⟩
    · split
      · exact proper
      · rename_i relative
        exact ⟨proper.plain, fun absolute => absurd absolute relative⟩
  | normal name =>
    refine ⟨?_, proper.grounded⟩
    intro other other_mem
    simp only [NormalForm.step, List.mem_append, List.mem_singleton] at other_mem
    rcases other_mem with old | rfl
    · exact proper.plain other old
    · exact plain other rfl

theorem Proper.foldl_step {form : NormalForm} (proper : form.Proper)
    {components : List Component}
    (plain : ∀ name, Component.normal name ∈ components → IsPlainName name) :
    (components.foldl NormalForm.step form).Proper := by
  induction components generalizing form with
  | nil => exact proper
  | cons component components inductionHypothesis =>
    apply inductionHypothesis
    · exact proper.step fun name name_eq => plain name (by simp [name_eq])
    · exact fun name name_mem => plain name (List.mem_cons_of_mem _ name_mem)

theorem filterMap_segments {form : NormalForm} (proper : form.Proper) :
    form.segments.filterMap Component.ofSegment? =
      List.replicate form.climbs .parent ++ form.names.map .normal := by
  have climbing : (List.replicate form.climbs [dot, dot]).filterMap Component.ofSegment? =
      List.replicate form.climbs .parent := by
    rw [List.filterMap_replicate_of_some (b := Component.parent) (by decide)]
  have descending : form.names.filterMap Component.ofSegment? =
      form.names.map .normal := by
    have plain := proper.plain
    generalize form.names = names at plain
    induction names with
    | nil => rfl
    | cons name names inductionHypothesis =>
      rw [List.filterMap_cons, ofSegment?_of_isPlainName (plain name (by simp))]
      simp [inductionHypothesis fun other other_mem => plain other (by simp [other_mem])]
  simp [segments, climbing, descending]

theorem segments_free {form : NormalForm} (proper : form.Proper) :
    ∀ segment ∈ form.segments, slash ∉ segment := by
  intro segment segment_mem
  simp only [segments, List.mem_append, List.mem_replicate] at segment_mem
  rcases segment_mem with ⟨_, rfl⟩ | name_mem
  · decide
  · exact (proper.plain segment name_mem).2.2.2

theorem segments_meaningful {form : NormalForm} (proper : form.Proper) :
    ∀ segment ∈ form.segments, segment ≠ [] ∧ segment ≠ [dot] := by
  intro segment segment_mem
  simp only [segments, List.mem_append, List.mem_replicate] at segment_mem
  rcases segment_mem with ⟨_, rfl⟩ | name_mem
  · decide
  · exact ⟨(proper.plain segment name_mem).1, (proper.plain segment name_mem).2.1⟩

/-- The components of a form that was written down. -/
theorem components_path {form : NormalForm} (proper : form.Proper) :
    form.path.components =
      if form.absolute = false ∧ form.segments = [] then [.current] else form.components := by
  by_cases absolute : form.absolute = true
  · have opened : form.path.opening.1 = some .root ∧
        form.path.opening.2.filterMap Component.ofSegment? =
          form.segments.filterMap Component.ofSegment? := by
      by_cases empty : form.segments = []
      · simp [path, absolute, Path.opening, empty, joinSegments, Thumbnails.segments,
          Component.ofSegment?]
      · simp [path, absolute, Path.opening, segments_joinSegments empty (segments_free proper)]
    simp [Path.components, opened, filterMap_segments proper, NormalForm.components, absolute]
  · by_cases empty : form.segments = []
    · simp [path, absolute, empty, Path.components, Path.opening, Thumbnails.segments, slash,
        dot]
    · have readBack := segments_joinSegments empty (segments_free proper)
      have meaningful := segments_meaningful proper
      have free := segments_free proper
      have opened : form.path.opening = (none, form.segments) := by
        simp only [path, absolute, Bool.false_eq_true, if_false, empty, Path.opening]
        split
        · rename_i nothing
          rw [nothing] at readBack
          have : [] ∈ form.segments := by simp [← readBack, Thumbnails.segments]
          exact absurd rfl (meaningful [] this).1
        · rename_i byte rest bytes_eq
          rw [bytes_eq] at readBack
          have other : byte ≠ slash := by
            rintro rfl
            have : [] ∈ form.segments := by simp [← readBack, Thumbnails.segments]
            exact absurd rfl (meaningful [] this).1
          rw [if_neg other, readBack]
          split
          · rename_i none_left
            exact absurd none_left empty
          · rename_i first others split_eq
            rw [if_neg (meaningful first (by simp [split_eq])).2, split_eq]
      simp [Path.components, opened, filterMap_segments proper, NormalForm.components, absolute,
        empty]

theorem foldl_step_climbs (count climbs : Nat) :
    (List.replicate count Component.parent).foldl step ⟨false, climbs, []⟩ =
      ⟨false, climbs + count, []⟩ := by
  induction count generalizing climbs with
  | zero => rfl
  | succ count inductionHypothesis =>
    rw [List.replicate_succ, List.foldl_cons]
    simp only [step, ne_eq, not_true_eq_false, if_false, Bool.false_eq_true]
    rw [inductionHypothesis]
    congr 1
    omega

theorem foldl_step_names (form : NormalForm) (names : List EntryName) :
    (names.map Component.normal).foldl step form =
      { form with names := form.names ++ names } := by
  induction names generalizing form with
  | nil => simp
  | cons name names inductionHypothesis =>
    simp [inductionHypothesis, step]

/-- A form that was written down is read back. -/
theorem normalForm_path {form : NormalForm} (proper : form.Proper) :
    form.path.normalForm = form := by
  rcases form with ⟨absolute, climbs, names⟩
  rw [Path.normalForm, components_path proper]
  cases absolute with
  | true =>
    have grounded : climbs = 0 := proper.grounded rfl
    subst grounded
    simp [NormalForm.components, foldl_step_names, step]
  | false =>
    split
    · rename_i empty
      simp only [segments, List.append_eq_nil_iff, List.replicate_eq_nil_iff] at empty
      simp [step, here, empty.2]
    · simp [NormalForm.components, List.foldl_append, here, foldl_step_climbs, foldl_step_names]

end NormalForm

namespace Path

theorem proper_normalForm (path : Path) : path.normalForm.Proper :=
  NormalForm.Proper.here.foldl_step fun _ name_mem => isPlainName_of_mem_components name_mem

theorem normalForm_normalize (path : Path) : path.normalize.normalForm = path.normalForm :=
  NormalForm.normalForm_path path.proper_normalForm

/-- Normalizing twice is normalizing once. -/
theorem normalize_normalize (path : Path) : path.normalize.normalize = path.normalize := by
  rw [normalize, normalForm_normalize, ← normalize]

/-- Normal paths with the same components are the same path. -/
theorem eq_of_components_eq {left right : Path} (leftNormal : left.normalize = left)
    (rightNormal : right.normalize = right) (same : left.components = right.components) :
    left = right := by
  rw [← leftNormal, ← rightNormal, normalize, normalize, normalForm, normalForm, same]

end Path

end Thumbnails
