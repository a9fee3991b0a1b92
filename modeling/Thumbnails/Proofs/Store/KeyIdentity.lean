import Mathlib.Data.List.Induction
import Mathlib.Logic.Function.Basic
import Thumbnails.Proofs.Key.Lexicographic
import Thumbnails.Proofs.Store.KeyIndex

/-!
# Keys are told apart by their order

The key index finds keys by comparing them, so it can only tell keys apart that do not compare as
equal. The order of keys is total and agrees with identity (`ThumbnailKey.ordersByIdentity`).
Therefore an index holds one entry for each key that was put into it, the one that was put last, and
no change of one key touches the entry of another (`KeyIndex.indexes_after`).
-/

namespace Thumbnails

namespace KeyIndex

variable {index : KeyIndex} {key : ThumbnailKey} {id : RecordId}

inductive Change where
  | insert (key : ThumbnailKey) (id : RecordId)
  | erase (key : ThumbnailKey)

def perform (index : KeyIndex) : Change → KeyIndex
  | .insert key id => index.insert key id
  | .erase key => index.erase key

/-- The index after changes that began with an empty one. -/
def after (changes : List Change) : KeyIndex :=
  changes.foldl perform empty

/-- What a change means key by key. -/
def Change.apply (names : ThumbnailKey → Option RecordId) : Change → ThumbnailKey → Option RecordId
  | .insert key id => Function.update names key (some id)
  | .erase key => Function.update names key none

/-- The name that each key was given last. -/
def namesAfter (changes : List Change) : ThumbnailKey → Option RecordId :=
  changes.foldl Change.apply fun _ => none

/-- An index holds the names of keys, in order and each of them once. -/
structure Indexes (index : KeyIndex) (names : ThumbnailKey → Option RecordId) : Prop where
  sorted : index.Sorted
  find?_eq : ∀ key, index.find? key = names key

theorem findIn_eq_some_iff {entries : List (ThumbnailKey × RecordId)}
    (sorted : SortedEntries entries) :
    findIn key entries = some id ↔ (key, id) ∈ entries := by
  induction entries with
  | nil => simp [findIn]
  | cons head rest inductionHypothesis =>
      rcases List.pairwise_cons.mp sorted with ⟨headFirst, restSorted⟩
      rw [findIn, List.mem_cons]
      cases compared : compare key head.1 with
      | lt =>
          refine iff_of_false (by simp) ?_
          rintro (rfl | later)
          · simp at compared
          · have between := Std.TransCmp.lt_trans compared (headFirst _ later)
            simp at between
      | eq =>
          obtain rfl := Std.LawfulEqOrd.eq_of_compare compared
          constructor
          · intro found
            exact Or.inl (Prod.ext rfl (Option.some.inj found).symm)
          · rintro (same | later)
            · rw [← same]
            · have behind := headFirst _ later
              simp at behind
      | gt =>
          rw [inductionHypothesis restSorted, or_iff_right]
          rintro rfl
          simp at compared

namespace Indexes

variable {names : ThumbnailKey → Option RecordId}

theorem mem_iff (indexes : index.Indexes names) :
    (key, id) ∈ index.entries ↔ names key = some id := by
  rw [← indexes.find?_eq, KeyIndex.find?, findIn_eq_some_iff indexes.sorted]

theorem keys_nodup (indexes : index.Indexes names) : (index.entries.map Prod.fst).Nodup := by
  apply List.pairwise_map.mpr
  apply List.Pairwise.imp _ indexes.sorted
  intro left right before same
  simp [same] at before

theorem perform (indexes : index.Indexes names) (change : Change) :
    (index.perform change).Indexes (change.apply names) := by
  cases change with
  | insert key id =>
      refine ⟨indexes.sorted.insert, ?_⟩
      intro other
      rw [KeyIndex.perform, find?_insert, Change.apply, Function.update_apply, indexes.find?_eq]
  | erase key =>
      refine ⟨indexes.sorted.erase, ?_⟩
      intro other
      rw [KeyIndex.perform, find?_erase indexes.sorted, Change.apply, Function.update_apply,
        indexes.find?_eq]

end Indexes

theorem indexes_after (changes : List Change) : (after changes).Indexes (namesAfter changes) := by
  induction changes using List.reverseRecOn with
  | nil => exact ⟨sorted_empty, fun _ => rfl⟩
  | append_singleton changes change inductionHypothesis =>
      simpa [after, namesAfter] using inductionHypothesis.perform change

end KeyIndex

namespace ThumbnailKey

/-- The order of keys is total, it is the lexicographic one, and it agrees with identity. -/
structure OrdersByIdentity : Prop where
  antisymm : ∀ left right : ThumbnailKey, (compare left right).isLE → (compare right left).isLE →
    left = right
  trans : ∀ first second third : ThumbnailKey, (compare first second).isLE →
    (compare second third).isLE → (compare first third).isLE
  total : ∀ left right : ThumbnailKey, (compare left right).isLE ∨ (compare right left).isLE
  /-- Both sides of a comparison agree on it. -/
  swap : ∀ left right : ThumbnailKey, compare right left = (compare left right).swap
  lexicographic : ∀ left right : ThumbnailKey, compare left right = .lt ↔ left.Precedes right
  /-- Paths are not compared as byte strings. -/
  parted : ∃ left right : ThumbnailKey, left.image.page = right.image.page ∧
    left.version = right.version ∧ compare left right = .lt ∧
      compare left.image.path.bytes right.image.path.bytes = .gt
  same_iff : ∀ left right : ThumbnailKey, compare left right = .eq ↔
    left.image.path.bytes = right.image.path.bytes ∧ left.image.page = right.image.page ∧
      left.version = right.version
  /-- The keys of paths that are written differently are the same if the paths are normalized to the
  same bytes. -/
  normalized : ∀ (path path' : Path) (page page' : UInt32) (version version' : String),
    compare (of path page version) (of path' page' version') = .eq ↔
      path.normalize.bytes = path'.normalize.bytes ∧ page = page' ∧ version = version'
  /-- An index has one entry for each key that has a name, and no other entries. -/
  indexed : ∀ changes : List KeyIndex.Change,
    ((KeyIndex.after changes).entries.map Prod.fst).Nodup ∧
      (∀ key id, (key, id) ∈ (KeyIndex.after changes).entries ↔
        KeyIndex.namesAfter changes key = some id) ∧
      ∀ key, (KeyIndex.after changes).find? key = KeyIndex.namesAfter changes key
  /-- Sorting puts keys in order. -/
  arranged : ∀ keys : List ThumbnailKey, IsArranged keys (sorted keys) ∧
    (sortedPositions keys).map (keys[·]?) = (sorted keys).map some
  /-- There is no other way to put the same keys in order. -/
  unique : ∀ keys others arranged arranged' : List ThumbnailKey, keys.Perm others →
    IsArranged keys arranged → IsArranged others arranged' → arranged = arranged'

theorem ordersByIdentity : OrdersByIdentity where
  antisymm _ _ := isLE_antisymm
  trans _ _ _ := isLE_trans
  total := isLE_total
  swap _ _ := Std.OrientedCmp.eq_swap
  lexicographic _ _ := compare_eq_lt_iff
  parted := ⟨of ⟨[0x61, slash, 0x62]⟩ 0 "", of ⟨[0x61, 0x2d, 0x62]⟩ 0 "", rfl, rfl, order_parted⟩
  same_iff _ _ := compare_eq_eq_iff
  normalized _ _ _ _ _ _ := compare_eq_eq_iff
  indexed changes := by
    have indexes := KeyIndex.indexes_after changes
    exact ⟨indexes.keys_nodup, fun _ _ => indexes.mem_iff, indexes.find?_eq⟩
  arranged keys := ⟨isArranged_sorted keys, map_sortedPositions keys⟩
  unique _ _ _ _ perm first second := first.unique perm second

end ThumbnailKey

end Thumbnails
