import Mathlib.Logic.Function.Basic
import Thumbnails.Proofs.Key.Order
import Thumbnails.Store.KeyIndex

/-!
# The key index is a finite map

Looking up a key after an insertion or a removal is looking it up in the map that was changed at
that key alone. Only removal needs the entries to be sorted: an entry behind the one that goes
could otherwise come to light.
-/

namespace Thumbnails

namespace KeyIndex

variable {key other : ThumbnailKey} {id : RecordId} {entries : List (ThumbnailKey × RecordId)}

/-- Entries in the order of their keys, one for each. -/
def SortedEntries (entries : List (ThumbnailKey × RecordId)) : Prop :=
  entries.Pairwise fun left right => compare left.1 right.1 = .lt

def Sorted (index : KeyIndex) : Prop :=
  SortedEntries index.entries

theorem mem_insertIn {entry : ThumbnailKey × RecordId}
    (entry_mem : entry ∈ insertIn key id entries) :
    entry = (key, id) ∨ entry ∈ entries := by
  induction entries with
  | nil => exact Or.inl (by simpa [insertIn] using entry_mem)
  | cons head rest ih =>
      simp only [insertIn] at entry_mem
      split at entry_mem
      · simpa using entry_mem
      · rcases List.mem_cons.mp entry_mem with new | old
        · exact Or.inl new
        · exact Or.inr (List.mem_cons_of_mem _ old)
      · rcases List.mem_cons.mp entry_mem with first | later
        · exact Or.inr (by simp [first])
        · rcases ih later with new | old
          · exact Or.inl new
          · exact Or.inr (List.mem_cons_of_mem _ old)

theorem sublist_eraseIn : (eraseIn key entries).Sublist entries := by
  induction entries with
  | nil => exact List.Sublist.slnil
  | cons head rest ih =>
      simp only [eraseIn]
      split
      · exact List.Sublist.refl _
      · exact List.sublist_cons_self head rest
      · exact ih.cons_cons head

theorem SortedEntries.insertIn (sorted : SortedEntries entries) :
    SortedEntries (insertIn key id entries) := by
  induction entries with
  | nil => simp [KeyIndex.insertIn, SortedEntries]
  | cons head rest ih =>
      rcases List.pairwise_cons.mp sorted with ⟨headFirst, restSorted⟩
      simp only [KeyIndex.insertIn]
      split
      · rename_i before
        refine List.pairwise_cons.mpr ⟨?_, sorted⟩
        intro entry entry_mem
        rcases List.mem_cons.mp entry_mem with rfl | entry_mem
        · exact before
        · exact Std.TransCmp.lt_trans before (headFirst entry entry_mem)
      · rename_i same
        refine List.pairwise_cons.mpr ⟨?_, restSorted⟩
        intro entry entry_mem
        rw [Std.LawfulEqOrd.eq_of_compare same]
        exact headFirst entry entry_mem
      · rename_i after
        refine List.pairwise_cons.mpr ⟨?_, ih restSorted⟩
        intro entry entry_mem
        rcases mem_insertIn entry_mem with rfl | entry_mem
        · exact Std.OrientedCmp.lt_of_gt after
        · exact headFirst entry entry_mem

theorem findIn_insertIn :
    findIn other (insertIn key id entries) =
      if other = key then some id else findIn other entries := by
  by_cases same : other = key
  · subst same
    induction entries with
    | nil => simp [insertIn, findIn]
    | cons head rest ih =>
        simp only [insertIn, if_true] at ih ⊢
        split
        · simp [findIn]
        · simp [findIn]
        · rename_i after
          simp [findIn, after, ih]
  · rw [if_neg same]
    have notEq : compare other key ≠ .eq := fun equal => same (Std.LawfulEqOrd.eq_of_compare equal)
    induction entries with
    | nil =>
        simp only [insertIn, findIn]
        cases compared : compare other key <;> simp_all
    | cons head rest ih =>
        simp only [insertIn]
        split
        · rename_i before
          rw [findIn]
          cases compared : compare other key with
          | lt => simp [findIn, Std.TransCmp.lt_trans compared before]
          | eq => exact absurd compared notEq
          | gt => rfl
        · rename_i equal
          have headEq := Std.LawfulEqOrd.eq_of_compare equal
          rw [findIn, findIn, ← headEq]
          cases compared : compare other key <;> simp_all
        · rw [findIn, findIn, ih]

theorem findIn_eq_none_of_forall_lt (before : ∀ entry ∈ entries, compare key entry.1 = .lt) :
    findIn key entries = none := by
  cases entries with
  | nil => rfl
  | cons head rest => simp [findIn, before head (by simp)]

theorem findIn_eraseIn (sorted : SortedEntries entries) :
    findIn other (eraseIn key entries) = if other = key then none else findIn other entries := by
  induction entries with
  | nil => simp [eraseIn, findIn]
  | cons head rest ih =>
      rcases List.pairwise_cons.mp sorted with ⟨headFirst, restSorted⟩
      simp only [eraseIn]
      split
      · rename_i before
        split
        · rename_i same
          subst same
          simp [findIn, before]
        · rfl
      · rename_i equal
        have headEq := Std.LawfulEqOrd.eq_of_compare equal
        split
        · rename_i same
          subst same
          apply findIn_eq_none_of_forall_lt
          rw [headEq]
          exact headFirst
        · rename_i different
          rw [findIn, ← headEq]
          cases compared : compare other key with
          | lt =>
              apply findIn_eq_none_of_forall_lt
              intro entry entry_mem
              apply Std.TransCmp.lt_trans compared
              rw [headEq]
              exact headFirst entry entry_mem
          | eq => exact absurd (Std.LawfulEqOrd.eq_of_compare compared) different
          | gt => rfl
      · rename_i after
        rw [findIn, findIn, ih restSorted]
        by_cases same : other = key
        · subst same
          simp [after]
        · simp [same]

theorem length_insertIn (absent : findIn key entries = none) :
    (insertIn key id entries).length = entries.length + 1 := by
  induction entries with
  | nil => rfl
  | cons head rest ih =>
      simp only [insertIn, findIn] at absent ⊢
      split <;> simp_all

theorem length_eraseIn (present : findIn key entries = some id) :
    (eraseIn key entries).length + 1 = entries.length := by
  induction entries with
  | nil => simp [findIn] at present
  | cons head rest ih =>
      simp only [eraseIn, findIn] at present ⊢
      split <;> simp_all

theorem sorted_empty : empty.Sorted :=
  List.Pairwise.nil

theorem Sorted.insert {index : KeyIndex} (sorted : index.Sorted) :
    (index.insert key id).Sorted :=
  SortedEntries.insertIn sorted

theorem Sorted.erase {index : KeyIndex} (sorted : index.Sorted) : (index.erase key).Sorted :=
  List.Pairwise.sublist sublist_eraseIn sorted

theorem find?_insert (index : KeyIndex) :
    (index.insert key id).find? other = if other = key then some id else index.find? other :=
  findIn_insertIn

theorem find?_erase {index : KeyIndex} (sorted : index.Sorted) :
    (index.erase key).find? other = if other = key then none else index.find? other :=
  findIn_eraseIn sorted

theorem size_insert {index : KeyIndex} (absent : index.find? key = none) :
    (index.insert key id).size = index.size + 1 :=
  length_insertIn absent

theorem size_erase {index : KeyIndex} (present : index.find? key = some id) :
    (index.erase key).size + 1 = index.size :=
  length_eraseIn present

end KeyIndex

end Thumbnails
