import Thumbnails.Generator
import Thumbnails.Proofs.Image.Plain
import Thumbnails.Proofs.Number.Rounding

/-!
# Thumbnails fit their box

A source that is too large for its box is scaled by the smaller one of two quotients. Both quotients
and both products are rounded, so a side of the result could be off by one. It is not: the rounding
errors stay far below one half (`Ratio.Within`), and the last rounding, to a whole number, removes
them. The side that decides the ratio becomes the side of the box, and the other one becomes no
longer than its own (`Generator.generate_scaled`).
-/

namespace Thumbnails

namespace Ratio

variable {ratio : Ratio} {side : UInt32} {length : Nat}

theorem one_eq : one = 38685626227668133590597632 :=
  rfl

/-- An error, in units, that no rounding of a quotient or a product of sides goes beyond. One half
is more than a thousand times as much, so two such errors do not reach it. -/
def tolerance : Nat :=
  Nat.pow 2 66

theorem tolerance_eq : tolerance = 73786976294838206464 :=
  rfl

/-- A ratio scales a side to a length at most. -/
def Within (ratio : Ratio) (side : UInt32) (length : Nat) : Prop :=
  side.toNat * ratio.units ≤ length * one + tolerance

/-- A ratio scales a side to a length at least. -/
def Reaches (ratio : Ratio) (side : UInt32) (length : Nat) : Prop :=
  length * one ≤ side.toNat * ratio.units + tolerance

theorem units_ofSides (dividend divisor : UInt32) : (ofSides dividend divisor).units =
    Rounding.nearest (dividend.toNat * one) divisor.toNat :=
  rfl

theorem ofSides_close (dividend : UInt32) {divisor : UInt32} (positive : 0 < divisor.toNat) :
    (ofSides dividend divisor).Within divisor dividend.toNat ∧
      (ofSides dividend divisor).Reaches divisor dividend.toNat := by
  have close := Rounding.nearest_close (dividend.toNat * one) positive
  have dividendLt := dividend.toNat_lt
  have divisorLt := divisor.toNat_lt
  rw [← units_ofSides, Rounding.leastSignificand_eq, one_eq] at close
  rw [Within, Reaches, Nat.mul_comm divisor.toNat, one_eq, tolerance_eq]
  omega

theorem units_least_le (left right : Ratio) :
    (least left right).units ≤ left.units ∧ (least left right).units ≤ right.units := by
  unfold least
  split <;> omega

theorem least_eq_or (left right : Ratio) : least left right = left ∨ least left right = right := by
  unfold least
  split
  · exact Or.inl rfl
  · exact Or.inr rfl

theorem Within.of_le {other : Ratio} (within : ratio.Within side length)
    (le : other.units ≤ ratio.units) : other.Within side length :=
  Nat.le_trans (Nat.mul_le_mul_left _ le) within

/-- A ratio that scales a side to less than itself scales no other side beyond itself. -/
theorem Within.shrinks {other : UInt32} (within : ratio.Within side length)
    (shorter : length < side.toNat) : ratio.Within other other.toNat := by
  have units : ratio.units < one := by
    apply Nat.lt_of_mul_lt_mul_left (a := side.toNat)
    rw [Within] at within
    have room : length * one + one ≤ side.toNat * one := by
      rw [← Nat.succ_mul]
      exact Nat.mul_le_mul_right _ shorter
    have small : tolerance < one := by decide
    omega
  exact Nat.le_trans (Nat.mul_le_mul_left _ (Nat.le_of_lt units)) (Nat.le_add_right _ _)

theorem units_scale (ratio : Ratio) (side : UInt32) : (ratio.scale side).units =
    Rounding.nearest (side.toNat * ratio.units) 1 :=
  rfl

theorem scale_close (within : ratio.Within side length) (bounded : length < UInt32.size) :
    (ratio.scale side).units ≤ side.toNat * ratio.units + tolerance ∧
      side.toNat * ratio.units ≤ (ratio.scale side).units + tolerance := by
  have close := Rounding.nearest_close (side.toNat * ratio.units) Nat.one_pos
  rw [← units_scale, Rounding.leastSignificand_eq] at close
  rw [Within, one_eq, tolerance_eq] at within
  rw [UInt32.size] at bounded
  rw [tolerance_eq]
  omega

theorem round_scale_le (within : ratio.Within side length) (bounded : length < UInt32.size) :
    (ratio.scale side).round ≤ length := by
  have close := scale_close within bounded
  rw [Within, one_eq, tolerance_eq] at within
  rw [tolerance_eq] at close
  rw [round, one_eq]
  omega

theorem le_round_scale (within : ratio.Within side length) (reaches : ratio.Reaches side length)
    (bounded : length < UInt32.size) : length ≤ (ratio.scale side).round := by
  have close := scale_close within bounded
  rw [Reaches, one_eq, tolerance_eq] at reaches
  rw [tolerance_eq] at close
  rw [round, one_eq]
  omega

end Ratio

namespace Size

variable {ratio : Ratio} {side bound : UInt32} {size box : Size}

/-- A scaled side is what rounding gives, but at least one pixel long. -/
theorem toNat_scaleSide (within : ratio.Within side bound.toNat) :
    (scaleSide ratio side).toNat = max (ratio.scale side).round 1 := by
  have le := Ratio.round_scale_le within bound.toNat_lt
  have bounded := bound.toNat_lt
  rw [scaleSide, UInt32.toNat_ofNat', UInt32.size]
  omega

theorem scaleSide_le (within : ratio.Within side bound.toNat) (positive : 0 < bound) :
    scaleSide ratio side ≤ bound := by
  have le := Ratio.round_scale_le within bound.toNat_lt
  rw [UInt32.lt_iff_toNat_lt] at positive
  rw [UInt32.le_iff_toNat_le, toNat_scaleSide within]
  omega

theorem scaleSide_eq (within : ratio.Within side bound.toNat)
    (reaches : ratio.Reaches side bound.toNat) (positive : 0 < bound) :
    scaleSide ratio side = bound := by
  have le := Ratio.round_scale_le within bound.toNat_lt
  have ge := Ratio.le_round_scale within reaches bound.toNat_lt
  rw [UInt32.lt_iff_toNat_lt] at positive
  rw [← UInt32.toNat_inj, toNat_scaleSide within]
  omega

theorem scaleSide_pos (within : ratio.Within side bound.toNat) : 0 < scaleSide ratio side := by
  rw [UInt32.lt_iff_toNat_lt, toNat_scaleSide within]
  exact Nat.lt_of_lt_of_le Nat.one_pos (Nat.le_max_right _ _)

/-- A size with at least one pixel. -/
def IsInhabited (size : Size) : Prop :=
  0 < size.width ∧ 0 < size.height

theorem ratioInto_within (inhabited : size.IsInhabited) (box : Size) :
    (size.ratioInto box).Within size.width box.width.toNat ∧
      (size.ratioInto box).Within size.height box.height.toNat := by
  have widths := (Ratio.ofSides_close box.width (UInt32.lt_iff_toNat_lt.mp inhabited.1)).1
  have heights := (Ratio.ofSides_close box.height (UInt32.lt_iff_toNat_lt.mp inhabited.2)).1
  exact ⟨widths.of_le (Ratio.units_least_le _ _).1, heights.of_le (Ratio.units_least_le _ _).2⟩

/-- One of the sides decides the ratio. -/
theorem ratioInto_reaches (inhabited : size.IsInhabited) (box : Size) :
    (size.ratioInto box).Reaches size.width box.width.toNat ∨
      (size.ratioInto box).Reaches size.height box.height.toNat := by
  have widths := (Ratio.ofSides_close box.width (UInt32.lt_iff_toNat_lt.mp inhabited.1)).2
  have heights := (Ratio.ofSides_close box.height (UInt32.lt_iff_toNat_lt.mp inhabited.2)).2
  rw [ratioInto]
  rcases Ratio.least_eq_or (Ratio.ofSides box.width size.width)
    (Ratio.ofSides box.height size.height) with same | same
  · rw [same]
    exact Or.inl widths
  · rw [same]
    exact Or.inr heights

theorem fits_iff : size.fits box = true ↔ size.width ≤ box.width ∧ size.height ≤ box.height := by
  rw [fits, Bool.and_eq_true, decide_eq_true_eq, decide_eq_true_eq]

/-- The longer one of the sides that are too long keeps every side from growing. -/
theorem ratioInto_shrinks (inhabited : size.IsInhabited) (tooLarge : ¬size.fits box = true)
    (side : UInt32) : (size.ratioInto box).Within side side.toNat := by
  have within := ratioInto_within inhabited box
  rw [fits_iff, Decidable.not_and_iff_or_not, UInt32.not_le, UInt32.not_le] at tooLarge
  rcases tooLarge with wide | high
  · exact within.1.shrinks (UInt32.lt_iff_toNat_lt.mp wide)
  · exact within.2.shrinks (UInt32.lt_iff_toNat_lt.mp high)

/-- How a size lies in a box and in the size it was shrunk from. -/
structure ShrunkInto (size box shrunk : Size) : Prop where
  inhabited : shrunk.IsInhabited
  within_box : shrunk.fits box = true
  within_size : shrunk.fits size = true
  touches : size.fits box = true ∨ shrunk.width = box.width ∨ shrunk.height = box.height

theorem shrunkInto_shrinkInto (inhabited : size.IsInhabited) (room : box.IsInhabited) :
    size.ShrunkInto box (size.shrinkInto box) := by
  by_cases small : size.fits box = true
  · rw [shrinkInto, if_pos small]
    exact ⟨inhabited, small, fits_iff.mpr ⟨UInt32.le_refl _, UInt32.le_refl _⟩, Or.inl small⟩
  rw [shrinkInto, if_neg small, resize]
  have within := ratioInto_within inhabited box
  have shrinks := ratioInto_shrinks inhabited small
  refine ⟨⟨scaleSide_pos within.1, scaleSide_pos within.2⟩, ?_, ?_, Or.inr ?_⟩
  · exact fits_iff.mpr ⟨scaleSide_le within.1 room.1, scaleSide_le within.2 room.2⟩
  · exact fits_iff.mpr ⟨scaleSide_le (shrinks _) inhabited.1, scaleSide_le (shrinks _) inhabited.2⟩
  · rcases ratioInto_reaches inhabited box with reaches | reaches
    · exact Or.inl (scaleSide_eq within.1 reaches room.1)
    · exact Or.inr (scaleSide_eq within.2 reaches room.2)

example : (Size.mk 2000 1000).shrinkInto ⟨200, 200⟩ = ⟨200, 100⟩ := by
  decide +kernel

end Size

/-- What a thumbnail is to its source and to the box it has to fit. -/
structure Image.ShrunkInto (source : Image) (box : Size) (thumbnail : Image) : Prop where
  color : thumbnail.color = source.color
  width_pos : 1 ≤ thumbnail.size.width.toNat
  height_pos : 1 ≤ thumbnail.size.height.toNat
  /-- It fits its box, and it is never larger than its source. -/
  width_le : thumbnail.size.width ≤ box.width ∧ thumbnail.size.width ≤ source.size.width
  height_le : thumbnail.size.height ≤ box.height ∧ thumbnail.size.height ≤ source.size.height
  /-- It is its source if and only if the source fits. -/
  same_iff : thumbnail = source ↔
    source.size.width ≤ box.width ∧ source.size.height ≤ box.height
  /-- Otherwise it is as large as the box lets it be. -/
  touches : thumbnail ≠ source →
    thumbnail.size.width = box.width ∨ thumbnail.size.height = box.height

section

variable [ImageLibrary]

theorem Image.shrinkInto_of_fits {image : Image} {box : Size} (filter : Filter)
    (fits : image.size.fits box = true) : image.shrinkInto filter box = image := by
  rw [shrinkInto, if_pos fits]

namespace Generator

variable {source : Image} {box : Size}

theorem generate_eq (filter : Filter) (inhabited : source.size.IsInhabited) (box : Size) :
    (scaled filter).generate source box = .done (source.shrinkInto filter box) := by
  have nonempty : ¬source.isEmpty = true := by
    rw [Image.isEmpty, Size.isEmpty, Bool.or_eq_true, decide_eq_true_eq, decide_eq_true_eq]
    rintro (narrow | low)
    · exact absurd inhabited.1 (by simp [narrow])
    · exact absurd inhabited.2 (by simp [low])
  simp only [scaled, if_neg nonempty]

/-- The scaled generator makes a thumbnail of every source with a pixel, for every box with room for
one, and it makes the same of this thumbnail again. -/
theorem generate_scaled (filter : Filter) (source : Image) (box : Size)
    (inhabited : 0 < source.size.width ∧ 0 < source.size.height)
    (room : 0 < box.width ∧ 0 < box.height) :
    ∃ thumbnail, (scaled filter).generate source box = .done thumbnail ∧
      source.ShrunkInto box thumbnail ∧
        ∀ again : Filter, (scaled again).generate thumbnail box = .done thumbnail := by
  have shrunk := Size.shrunkInto_shrinkInto inhabited room
  rcases Size.fits_iff.mp shrunk.within_box with ⟨boxWidth, boxHeight⟩
  rcases Size.fits_iff.mp shrunk.within_size with ⟨sourceWidth, sourceHeight⟩
  rw [← source.size_shrinkInto filter] at shrunk boxWidth boxHeight sourceWidth sourceHeight
  refine ⟨source.shrinkInto filter box, generate_eq filter inhabited box,
    ⟨source.color_shrinkInto filter box, UInt32.lt_iff_toNat_lt.mp shrunk.inhabited.1,
      UInt32.lt_iff_toNat_lt.mp shrunk.inhabited.2, ⟨boxWidth, sourceWidth⟩,
      ⟨boxHeight, sourceHeight⟩, ?same, ?touches⟩, ?again⟩
  case same =>
    rw [← Size.fits_iff]
    constructor
    · intro same
      rw [← same]
      exact shrunk.within_box
    · exact Image.shrinkInto_of_fits filter
  case touches =>
    intro changed
    exact shrunk.touches.resolve_left fun fits => changed (Image.shrinkInto_of_fits filter fits)
  case again =>
    intro again
    rw [generate_eq again shrunk.inhabited, Image.shrinkInto_of_fits again shrunk.within_box]

end Generator

end

namespace Generator

attribute [local instance] ImageLibrary.plain

/-- A line of pixels as long as can be becomes as long as the box and stays one pixel high. -/
theorem generate_scaled_line :
    (0 < (4294967295 : UInt32) ∧ 0 < (3 : UInt32)) ∧ (0 < (7 : UInt32) ∧ 0 < (9 : UInt32)) ∧
      ∃ thumbnail,
        (scaled .nearest).generate ⟨⟨4294967295, 3⟩, .l8, List.replicate 12884901885 0⟩ ⟨7, 9⟩ =
            .done thumbnail ∧
          Image.ShrunkInto ⟨⟨4294967295, 3⟩, .l8, List.replicate 12884901885 0⟩ ⟨7, 9⟩
            thumbnail ∧
          ∀ again : Filter, (scaled again).generate thumbnail ⟨7, 9⟩ = .done thumbnail :=
  ⟨by decide, by decide,
    generate_scaled .nearest ⟨⟨4294967295, 3⟩, .l8, List.replicate 12884901885 0⟩ ⟨7, 9⟩
      (by decide) (by decide)⟩

end Generator

end Thumbnails
