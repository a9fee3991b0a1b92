import Thumbnails.Proofs.Key.Order

/-!
# The order of keys, spelled out

Keys are compared by a composed comparison. What it comes to is said here without a comparison:
`ThumbnailKey.Precedes` looks at the paths component by component, then at the pages as numbers,
then at the bytes of the versions. Components precede each other by kind, and names by their bytes
(`Component.Precedes`). This is not the order of the paths as byte strings: a separator ends a name,
so it comes before every byte that goes on with one (`ThumbnailKey.order_parted`).

A list of keys can be brought into order in one way only (`ThumbnailKey.IsArranged.unique`), because
keys that compare as equal are the same key.
-/

namespace Thumbnails

/-- Comparing lists is lexicographic if comparing their elements is a strict order. -/
theorem compare_list_eq_lt_iff {α : Type} [Ord α] [Std.LawfulEqOrd α] {precedes : α → α → Prop}
    (elements : ∀ first second : α, compare first second = .lt ↔ precedes first second)
    {left right : List α} : compare left right = .lt ↔ List.Lex precedes left right := by
  induction left generalizing right with
  | nil =>
      cases right with
      | nil => simp
      | cons second right => simp [List.compare_nil_cons]
  | cons first left inductionHypothesis =>
      cases right with
      | nil => simp [List.compare_cons_nil]
      | cons second right =>
          rw [List.compare_cons_cons, Ordering.then_eq_lt, elements,
            Std.LawfulEqOrd.compare_eq_iff_eq, inductionHypothesis, List.cons_lex_cons_iff]

namespace Component

/-- The root comes first, then `.`, then `..`, then names in the order of their bytes. -/
inductive Precedes : Component → Component → Prop
  | root_current : Precedes .root .current
  | root_parent : Precedes .root .parent
  | root_normal (name : EntryName) : Precedes .root (.normal name)
  | current_parent : Precedes .current .parent
  | current_normal (name : EntryName) : Precedes .current (.normal name)
  | parent_normal (name : EntryName) : Precedes .parent (.normal name)
  | normal {first second : EntryName} (bytes : List.Lex (· < ·) first second) :
      Precedes (.normal first) (.normal second)

theorem compare_eq_lt_iff {left right : Component} :
    compare left right = .lt ↔ left.Precedes right := by
  have names : ∀ first second : EntryName,
      compare first second = .lt ↔ List.Lex (· < ·) first second :=
    fun _ _ => compare_list_eq_lt_iff fun _ _ => Std.compare_eq_lt
  have kinds : compare left right = .lt ↔ left.rank < right.rank ∨
      left.rank = right.rank ∧ List.Lex (· < ·) left.name right.name := by
    rw [← names, ← Std.LawfulEqOrd.compare_eq_iff_eq (a := left.rank), ← Std.compare_eq_lt]
    exact Ordering.then_eq_lt
  rw [kinds]
  constructor
  · rintro (kind | ⟨kind, bytes⟩)
    · cases left <;> cases right <;> simp [rank] at kind
      all_goals constructor
    · cases left <;> cases right <;> simp [rank, name] at kind bytes
      exact .normal bytes
  · intro before
    cases before with
    | normal bytes => exact Or.inr ⟨rfl, bytes⟩
    | _ => simp [rank]

end Component

namespace ThumbnailKey

variable {left right : ThumbnailKey}

/-- What it means that a key comes before another one. -/
inductive Precedes (left right : ThumbnailKey) : Prop
  | path (components : List.Lex Component.Precedes left.image.path.components
      right.image.path.components)
  | page (path : left.image.path = right.image.path)
      (number : left.image.page.toNat < right.image.page.toNat)
  | version (path : left.image.path = right.image.path) (page : left.image.page = right.image.page)
      (bytes : List.Lex (· < ·) (Utf8.bytesOf left.version) (Utf8.bytesOf right.version))

theorem compare_components_eq_eq_iff : compare left.image.path.components
    right.image.path.components = .eq ↔ left.image.path = right.image.path := by
  rw [Std.LawfulEqOrd.compare_eq_iff_eq]
  constructor
  · exact Path.eq_of_components_eq left.image.normal right.image.normal
  · intro same
    rw [same]

theorem compare_eq_lt_iff : compare left right = .lt ↔ left.Precedes right := by
  have paths : compare left.image.path.components right.image.path.components = .lt ↔
      List.Lex Component.Precedes left.image.path.components right.image.path.components :=
    compare_list_eq_lt_iff fun _ _ => Component.compare_eq_lt_iff
  have versions : compare (Utf8.bytesOf left.version) (Utf8.bytesOf right.version) = .lt ↔
      List.Lex (· < ·) (Utf8.bytesOf left.version) (Utf8.bytesOf right.version) :=
    compare_list_eq_lt_iff fun _ _ => Std.compare_eq_lt
  have parts : compare left right = .lt ↔
      List.Lex Component.Precedes left.image.path.components right.image.path.components ∨
        left.image.path = right.image.path ∧ (left.image.page < right.image.page ∨
          left.image.page = right.image.page ∧
            List.Lex (· < ·) (Utf8.bytesOf left.version) (Utf8.bytesOf right.version)) := by
    rw [← paths, ← versions, ← compare_components_eq_eq_iff, ← Std.compare_eq_lt,
      ← Std.LawfulEqOrd.compare_eq_iff_eq (a := left.image.page), ← Ordering.then_eq_lt,
      ← Ordering.then_eq_lt]
    rfl
  rw [parts]
  constructor
  · rintro (components | ⟨path, number | ⟨page, bytes⟩⟩)
    · exact .path components
    · exact .page path (UInt32.lt_iff_toNat_lt.mp number)
    · exact .version path page bytes
  · rintro (components | ⟨path, number⟩ | ⟨path, page, bytes⟩)
    · exact Or.inl components
    · exact Or.inr ⟨path, Or.inl (UInt32.lt_iff_toNat_lt.mpr number)⟩
    · exact Or.inr ⟨path, Or.inr ⟨page, bytes⟩⟩

/-- Keys compare as equal if nothing about them differs. -/
theorem compare_eq_eq_iff : compare left right = .eq ↔
    left.image.path.bytes = right.image.path.bytes ∧ left.image.page = right.image.page ∧
      left.version = right.version := by
  rw [Std.LawfulEqOrd.compare_eq_iff_eq]
  constructor
  · rintro rfl
    exact ⟨rfl, rfl, rfl⟩
  · rcases left with ⟨⟨⟨leftPath⟩, leftPage, leftNormal⟩, leftVersion⟩
    rcases right with ⟨⟨⟨rightPath⟩, rightPage, rightNormal⟩, rightVersion⟩
    rintro ⟨paths, pages, versions⟩
    simp only at paths pages versions
    subst paths pages versions
    rfl

/-- Components come in another order than the bytes of their paths: `a/b` is before `a-b`, although
the separator is the larger byte. -/
theorem order_parted :
    compare (of ⟨[0x61, slash, 0x62]⟩ 0 "") (of ⟨[0x61, 0x2d, 0x62]⟩ 0 "") = .lt ∧
      compare (of ⟨[0x61, slash, 0x62]⟩ 0 "").image.path.bytes
        (of ⟨[0x61, 0x2d, 0x62]⟩ 0 "").image.path.bytes = .gt := by
  decide +kernel

theorem isLE_trans {first second third : ThumbnailKey} (before : (compare first second).isLE)
    (after : (compare second third).isLE) : (compare first third).isLE :=
  Std.TransCmp.isLE_trans before after

theorem isLE_antisymm (before : (compare left right).isLE) (after : (compare right left).isLE) :
    left = right :=
  Std.LawfulEqOrd.eq_of_compare (Std.OrientedCmp.isLE_antisymm before after)

theorem isLE_total (left right : ThumbnailKey) :
    (compare left right).isLE ∨ (compare right left).isLE := by
  have swapped : compare right left = (compare left right).swap := Std.OrientedCmp.eq_swap
  rw [swapped]
  cases compare left right <;> simp

/-- A list of keys that holds the same keys in order. -/
structure IsArranged (keys arranged : List ThumbnailKey) : Prop where
  perm : arranged.Perm keys
  ordered : arranged.Pairwise fun left right => (compare left right).isLE

/-- Whatever the keys are sorted with, and whatever order they were in, the result is the same. -/
theorem IsArranged.unique {keys others : List ThumbnailKey} (perm : keys.Perm others)
    {arranged : List ThumbnailKey} {arranged' : List ThumbnailKey}
    (first : IsArranged keys arranged) (second : IsArranged others arranged') :
    arranged = arranged' := by
  apply List.Perm.eq_of_pairwise _ first.ordered second.ordered
  · exact (first.perm.trans perm).trans second.perm.symm
  · intro left right _ _ before after
    exact isLE_antisymm before after

/-- The keys of a list in order. -/
def sorted (keys : List ThumbnailKey) : List ThumbnailKey :=
  keys.mergeSort fun left right => (order left right).isLE

theorem isArranged_sorted (keys : List ThumbnailKey) : IsArranged keys (sorted keys) where
  perm := List.mergeSort_perm keys _
  ordered := by
    apply List.pairwise_mergeSort
    · intro first second third before after
      exact isLE_trans before after
    · intro first second
      rw [Bool.or_eq_true]
      exact isLE_total first second

/-- Taking the keys from their positions gives them in order. -/
theorem map_sortedPositions (keys : List ThumbnailKey) :
    (sortedPositions keys).map (keys[·]?) = (sorted keys).map some := by
  have arranged : (keys.zipIdx.mergeSort fun left right => (order left.1 right.1).isLE).map
      Prod.fst = sorted keys := by
    rw [List.map_mergeSort (s := fun left right => (order left right).isLE) fun _ _ _ _ => rfl,
      List.zipIdx_map_fst]
    rfl
  rw [sortedPositions, List.map_map, ← arranged, List.map_map]
  apply List.map_congr_left
  intro entry entryMem
  exact List.mem_zipIdx_iff_getElem?.mp (List.mem_mergeSort.mp entryMem)

end ThumbnailKey

end Thumbnails
