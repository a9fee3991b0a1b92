import Thumbnails.Proofs.Key.FileName
import Thumbnails.Proofs.Path.Stem

/-!
# When names collide

Two thumbnails have the same path exactly if their keys are alike: the same page, the same version,
and source paths with the same text (`ThumbnailKey.collidesExactly`). That a name tells so much is
shown with the parts of a name. The converse says that it tells no more: the stem in a name looks as
if it depended on the bytes of the path, but its text is decided by the text of the path.

What is hashed does not tell as much by itself (`ThumbnailKey.identity_crossed`). A zero at the end
of a path and a zero at the beginning of a version are the same zero there.
-/

namespace Thumbnails

namespace Path

variable {name name' : EntryName}

theorem fileName?_child (directory : Path) (plain : IsPlainName name) :
    (directory.child name).fileName? = some name := by
  have last : (directory.child name).lastSegment = name := by
    rw [lastSegment, segments_child directory plain.2.2.2, List.getLastD_concat]
  have named : (directory.child name).EndsInName := by
    rw [EndsInName, last]
    exact ⟨plain.1, plain.2.1, plain.2.2.1⟩
  rw [fileName?_of_endsInName named, last]

/-- Names in a directory differ even where only the components of paths are compared. -/
theorem sameComponents_child_iff (directory : Path) (plain : IsPlainName name)
    (plain' : IsPlainName name') :
    (directory.child name).sameComponents (directory.child name') = true ↔ name = name' := by
  rw [sameComponents, decide_eq_true_eq]
  constructor
  · intro same
    have names : (directory.child name).fileName? = (directory.child name').fileName? := by
      rw [fileName?, fileName?, same]
    rw [fileName?_child directory plain, fileName?_child directory plain'] at names
    exact Option.some.inj names
  · rintro rfl
    rfl

end Path

namespace ThumbnailKey

variable {left right : ThumbnailKey}

/-- Keys that differ in nothing but bytes of their paths that do not show in a text. -/
structure Alike (left right : ThumbnailKey) : Prop where
  pathText : left.pathText = right.pathText
  page : left.image.page = right.image.page
  version : left.version = right.version

/-- When two keys have the same thumbnail path. -/
structure CollidesExactly (left right : ThumbnailKey) (directory : Path) : Prop where
  bytes_iff : left.thumbnailPath directory = right.thumbnailPath directory ↔ left.Alike right
  /-- As paths are compared elsewhere, by their components, they are no more often the same. -/
  components_iff :
    (left.thumbnailPath directory).sameComponents (right.thumbnailPath directory) = true ↔
      left.Alike right

/-- The text of a path tells the text of its stem. -/
theorem stem_congr (same : left.pathText = right.pathText) : left.stem = right.stem := by
  simp only [stem, Path.stem?]
  by_cases named : left.image.path.EndsInName
  · rw [Path.fileName?_of_endsInName named, Path.fileName?_of_endsInName (named.congr same)]
    exact Path.decodeLossy_cutName_congr (Path.decodeLossy_lastSegment_congr same)
  · have unnamed : ¬right.image.path.EndsInName := fun named' => named (named'.congr same.symm)
    rw [Path.fileName?_of_not_endsInName left.image.normal named,
      Path.fileName?_of_not_endsInName right.image.normal unnamed]

theorem Alike.fileName_eq (alike : left.Alike right) : left.fileName = right.fileName := by
  have identities : left.identity = right.identity := by
    rw [identity_eq, identity_eq, alike.pathText, alike.page, alike.version]
  rw [fileName, fileName, fileNameText, fileNameText, digest, digest, identities,
    stem_congr alike.pathText, alike.page, alike.version]

theorem fileName_eq_iff (separates : Sha256.Separates left.identity right.identity) :
    left.fileName = right.fileName ↔ left.Alike right := by
  constructor
  · intro same
    rcases parts_eq_of_fileName_eq same separates with ⟨texts, pages, versions⟩
    exact ⟨texts, pages, versions⟩
  · exact Alike.fileName_eq

/-- A source path without a zero, under a version that begins with one. -/
def zeroInVersion : ThumbnailKey :=
  of ⟨[0x2f, 0x73]⟩ 0 "\x00v"

/-- A source path that ends in a zero, under a version without one. -/
def zeroInPath : ThumbnailKey :=
  of ⟨[0x2f, 0x73, 0]⟩ 0 "v"

/-- The same bytes are hashed for keys that are not alike. -/
theorem identity_crossed : zeroInVersion.identity = zeroInPath.identity ∧
    ¬zeroInVersion.Alike zeroInPath := by
  refine ⟨by decide +kernel, ?_⟩
  intro alike
  exact absurd alike.version (by decide +kernel)

/-- Thumbnail paths are the same for alike keys and for no others, as long as the digest separates
the two texts that it hashes. These texts may be the same for keys that are not alike. -/
theorem collidesExactly (left right : ThumbnailKey) (directory : Path)
    (separates : Sha256.Separates left.identity right.identity) :
    left.CollidesExactly right directory ∧
      ∃ first second : ThumbnailKey, first.identity = second.identity ∧ ¬first.Alike second := by
  refine ⟨⟨?_, ?_⟩, _, _, identity_crossed⟩
  · rw [← fileName_eq_iff separates, thumbnailPath, thumbnailPath,
      directory.child_injective.eq_iff]
  · rw [← fileName_eq_iff separates]
    exact directory.sameComponents_child_iff left.isPlainName_fileName right.isPlainName_fileName

/-- The digests of such keys are the same, and their thumbnails still have different paths. -/
theorem collidesExactly_crossed :
    zeroInVersion.identity = zeroInPath.identity ∧
      Sha256.Separates zeroInVersion.identity zeroInPath.identity ∧
      zeroInVersion.CollidesExactly zeroInPath ⟨[0x74]⟩ ∧
      zeroInVersion.thumbnailPath ⟨[0x74]⟩ ≠ zeroInPath.thumbnailPath ⟨[0x74]⟩ := by
  rcases identity_crossed with ⟨same, unlike⟩
  have separates : Sha256.Separates zeroInVersion.identity zeroInPath.identity := fun _ => same
  have exact := (collidesExactly zeroInVersion zeroInPath ⟨[0x74]⟩ separates).1
  exact ⟨same, separates, exact, fun paths => unlike (exact.bytes_iff.mp paths)⟩

end ThumbnailKey

end Thumbnails
