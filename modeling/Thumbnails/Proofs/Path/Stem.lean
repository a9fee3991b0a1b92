import Mathlib.Data.List.TakeWhile
import Thumbnails.Proofs.Files.Place
import Thumbnails.Proofs.Text.Lossy

/-!
# Stems and their texts

The file name of a normal path is its last segment, if that is a name at all, and its stem is cut at
the last dot. Separators and dots show in the text of a path, so the text of the whole path tells
the text of its last segment, and that tells the text of the stem
(`Path.decodeLossy_cutName_congr`).
-/

namespace Thumbnails

namespace Path

open Utf8

variable {path left right : Path} {front back name : EntryName}

theorem lastSegment_append (front : List UInt8) (absent : slash ∉ back) :
    (⟨front ++ slash :: back⟩ : Path).lastSegment = back := by
  rw [lastSegment, segments_append_of_slash, segments_of_no_slash absent, List.getLastD_concat]

theorem lastSegment_of_no_slash (absent : slash ∉ back) : (⟨back⟩ : Path).lastSegment = back := by
  rw [lastSegment, segments_of_no_slash absent]
  rfl

/-- Paths with the same text have last segments with the same text. -/
theorem decodeLossy_lastSegment_congr (same : decodeLossy left.bytes = decodeLossy right.bytes) :
    decodeLossy left.lastSegment = decodeLossy right.lastSegment := by
  rcases left with ⟨bytes⟩
  rcases right with ⟨bytes'⟩
  by_cases present : slash ∈ bytes
  · rcases exists_last_cut present with ⟨front, back, rfl, absent⟩
    rcases exists_cut_of_decodeLossy_eq (by decide) (by decide) same absent with
      ⟨front', back', rfl, absent', _, backs⟩
    rw [lastSegment_append front absent, lastSegment_append front' absent', backs]
  · have absent' : slash ∉ bytes' :=
      fun present' =>
        present ((mem_iff_of_decodeLossy_eq (by decide) (by decide) same).mpr present')
    rw [lastSegment_of_no_slash present, lastSegment_of_no_slash absent']
    exact same

/-- Whether a path ends in a name can be told from its text. -/
theorem EndsInName.congr (named : left.EndsInName)
    (same : decodeLossy left.bytes = decodeLossy right.bytes) : right.EndsInName := by
  have dots : ∀ count, right.lastSegment = List.replicate count dot →
      left.lastSegment = List.replicate count dot := by
    intro count dotted
    have texts := decodeLossy_lastSegment_congr same
    rw [dotted] at texts
    exact eq_replicate_of_decodeLossy_eq (by decide) (by decide) texts.symm
  exact ⟨fun empty => named.1 (dots 0 empty), fun current => named.2.1 (dots 1 current),
    fun parent => named.2.2 (dots 2 parent)⟩

theorem exists_opening_eq (named : path.EndsInName) :
    ∃ front, path.opening.2 = front ++ [path.lastSegment] := by
  have whole : ∀ parts : List EntryName, parts ≠ [] →
      ∃ front, parts = front ++ [parts.getLastD []] := by
    intro parts nonempty
    refine ⟨parts.dropLast, ?_⟩
    rw [List.getLastD_eq_getLast?, List.getLast?_eq_some_getLast nonempty, Option.getD_some,
      List.dropLast_concat_getLast]
  rcases path with ⟨_ | ⟨byte, rest⟩⟩
  · exact absurd rfl named.1
  by_cases absolute : byte = slash
  · subst absolute
    have last : (⟨slash :: rest⟩ : Path).lastSegment = (segments rest).getLastD [] := by
      rcases cut : segments rest with _ | ⟨first, others⟩
      · exact absurd cut (segments_ne_nil rest)
      · simp [lastSegment, segments, cut]
    rw [last]
    simpa [opening] using whole _ (segments_ne_nil rest)
  · rcases cut : segments (byte :: rest) with _ | ⟨first, others⟩
    · exact absurd cut (segments_ne_nil _)
    by_cases current : first = [dot]
    · -- A leading `.` is not the last segment, or else there would be no name.
      have more : others ≠ [] := by
        rintro rfl
        exact named.2.1 (by simp [lastSegment, cut, current])
      have last : (⟨byte :: rest⟩ : Path).lastSegment = others.getLastD [] := by
        rcases others with _ | ⟨next, others⟩
        · exact absurd rfl more
        · simp [lastSegment, cut]
      rw [last]
      simpa [opening, absolute, cut, current] using whole _ more
    · rw [lastSegment, cut]
      simpa [opening, absolute, cut, current] using whole (first :: others) (by simp)

theorem fileName?_of_endsInName (named : path.EndsInName) :
    path.fileName? = some path.lastSegment := by
  rcases exists_opening_eq named with ⟨front, opened⟩
  have read : Component.ofSegment? path.lastSegment = some (.normal path.lastSegment) := by
    rw [Component.ofSegment?, if_neg (by simp [named.1, named.2.1]), if_neg named.2.2]
  rw [fileName?, components, opened, List.filterMap_append, List.filterMap_cons, read,
    List.filterMap_nil, ← List.append_assoc, List.getLast?_concat]

theorem normal_mem_of_fileName? (found : path.fileName? = some name) :
    Component.normal name ∈ path.components := by
  unfold fileName? at found
  split at found
  · rename_i last
    cases found
    exact List.mem_of_getLast? last
  · cases found

theorem lastSegment_normalForm {form : NormalForm} {before : List EntryName}
    (proper : form.Proper) (named : form.names = before ++ [name]) :
    form.path.lastSegment = name := by
  have parts : form.segments = List.replicate form.climbs [dot, dot] ++ before ++ [name] := by
    rw [NormalForm.segments, named, List.append_assoc]
  have nonempty : form.segments ≠ [] := by simp [parts]
  have cut := segments_joinSegments nonempty (NormalForm.segments_free proper)
  rw [lastSegment, NormalForm.path]
  split
  · simp only [segments, if_true]
    rw [cut, parts, ← List.cons_append, List.getLastD_concat]
  · rw [cut, parts, List.getLastD_concat]

/-- A normal path that does not end in a name has no name at all to end in. -/
theorem fileName?_of_not_endsInName (normal : path.normalize = path)
    (unnamed : ¬path.EndsInName) : path.fileName? = none := by
  have proper := path.proper_normalForm
  have written : path.normalForm.path = path := normal
  generalize path.normalForm = form at proper written
  subst written
  rcases List.eq_nil_or_concat' form.names with unnamed' | ⟨before, name, named⟩
  · rw [Option.eq_none_iff_forall_ne_some]
    intro name found
    have nameMem := normal_mem_of_fileName? found
    rw [NormalForm.components_path proper] at nameMem
    split at nameMem
    · simp at nameMem
    · simp only [NormalForm.components, unnamed'] at nameMem
      split at nameMem <;> simp at nameMem
  · have plain := proper.plain name (by simp [named])
    rw [EndsInName, lastSegment_normalForm proper named] at unnamed
    exact absurd ⟨plain.1, plain.2.1, plain.2.2.1⟩ unnamed

/-- A name is cut at its last dot, unless nothing stands before it. -/
theorem cutName_append (front : EntryName) (absent : dot ∉ back) :
    (cutName (front ++ dot :: back)).1 = if front = [] then dot :: back else front := by
  have after : ∀ byte ∈ back.reverse, decide (byte ≠ dot) = true := by
    intro byte byteMem
    rw [decide_eq_true_eq]
    rintro rfl
    exact absent (List.mem_reverse.mp byteMem)
  have reversed : (front ++ dot :: back).reverse.dropWhile (· ≠ dot) = dot :: front.reverse := by
    rw [List.reverse_append, List.reverse_cons, List.append_assoc,
      List.dropWhile_append_of_pos after]
    simp
  simp only [cutName, reversed]
  rcases List.eq_nil_or_concat' front with rfl | ⟨before, last, rfl⟩
  · rfl
  · simp

theorem cutName_of_no_dot (absent : dot ∉ name) : (cutName name).1 = name := by
  have all : name.reverse.dropWhile (· ≠ dot) = [] := by
    rw [List.dropWhile_eq_nil_iff]
    intro byte byteMem
    rw [decide_eq_true_eq]
    rintro rfl
    exact absent (List.mem_reverse.mp byteMem)
  simp only [cutName, all]

/-- Names with the same text have stems with the same text. -/
theorem decodeLossy_cutName_congr {name name' : EntryName}
    (same : decodeLossy name = decodeLossy name') :
    decodeLossy (cutName name).1 = decodeLossy (cutName name').1 := by
  by_cases present : dot ∈ name
  · rcases exists_last_cut present with ⟨front, back, rfl, absent⟩
    rcases exists_cut_of_decodeLossy_eq (by decide) (by decide) same absent with
      ⟨front', back', rfl, absent', fronts, _⟩
    have leading : front = [] ↔ front' = [] := by
      rw [← decodeLossy_eq_nil_iff, fronts, decodeLossy_eq_nil_iff]
    rw [cutName_append front absent, cutName_append front' absent']
    by_cases empty : front = []
    · rw [if_pos empty, if_pos (leading.mp empty)]
      rwa [empty, leading.mp empty] at same
    · rw [if_neg empty, if_neg (empty ∘ leading.mpr), fronts]
  · have absent' : dot ∉ name' :=
      fun present' =>
        present ((mem_iff_of_decodeLossy_eq (by decide) (by decide) same).mpr present')
    rw [cutName_of_no_dot present, cutName_of_no_dot absent', same]

end Path

end Thumbnails
