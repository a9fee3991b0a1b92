import Mathlib.Logic.Function.Basic
import Thumbnails.Key.Basic

/-!
# The order of keys

Keys compare by path, page and version. The comparison is oriented and transitive because it is
built from comparisons of numbers and of lists. It tells any two keys apart: normal paths with the
same components are equal, and a text is decided by its bytes.
-/

namespace Thumbnails

namespace Component

instance : Std.TransOrd Component :=
  inferInstanceAs (Std.TransCmp (compareLex (compareOn rank) (compareOn name)))

theorem eq_of_rank_of_name {left right : Component} (rankEq : left.rank = right.rank)
    (nameEq : left.name = right.name) : left = right := by
  cases left <;> cases right <;> simp_all [rank, name]

instance : Std.LawfulEqOrd Component where
  eq_of_compare {left right} same := by
    rcases compareLex_eq_eq.mp same with ⟨rankSame, nameSame⟩
    have rankEq : left.rank = right.rank := Std.LawfulEqOrd.eq_of_compare rankSame
    have nameEq : left.name = right.name := Std.LawfulEqOrd.eq_of_compare nameSame
    exact eq_of_rank_of_name rankEq nameEq

end Component

namespace Utf8

/-- A text is decided by its bytes. -/
theorem bytesOf_injective : Function.Injective bytesOf := by
  intro left right same
  have encoded : left.toList.utf8Encode = right.toList.utf8Encode :=
    congrArg List.toByteArray same
  rw [String.utf8Encode_toList, String.utf8Encode_toList] at encoded
  exact String.toByteArray_inj.mp encoded

end Utf8

namespace ThumbnailKey

instance : Std.TransOrd ThumbnailKey :=
  inferInstanceAs (Std.TransCmp
    (compareLex (compareOn fun key : ThumbnailKey => key.image.path.components)
      (compareLex (compareOn fun key => key.image.page)
        (compareOn fun key => Utf8.bytesOf key.version))))

instance : Std.LawfulEqOrd ThumbnailKey where
  eq_of_compare {left right} same := by
    rcases compareLex_eq_eq.mp same with ⟨pathSame, restSame⟩
    rcases compareLex_eq_eq.mp restSame with ⟨pageSame, versionSame⟩
    have componentsEq : left.image.path.components = right.image.path.components :=
      Std.LawfulEqOrd.eq_of_compare pathSame
    have pathEq := Path.eq_of_components_eq left.image.normal right.image.normal componentsEq
    have pageEq : left.image.page = right.image.page := Std.LawfulEqOrd.eq_of_compare pageSame
    have versionEq : left.version = right.version :=
      Utf8.bytesOf_injective (Std.LawfulEqOrd.eq_of_compare versionSame)
    rcases left with ⟨⟨leftPath, leftPage, leftNormal⟩, leftVersion⟩
    rcases right with ⟨⟨rightPath, rightPage, rightNormal⟩, rightVersion⟩
    simp only at pathEq pageEq versionEq
    subst pathEq pageEq versionEq
    rfl

end ThumbnailKey

end Thumbnails
