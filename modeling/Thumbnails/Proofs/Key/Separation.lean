import Thumbnails.Cache.Loader
import Thumbnails.Proofs.Files.Handle
import Thumbnails.Proofs.Image.Plain
import Thumbnails.Proofs.Key.FileName

/-!
# Thumbnails side by side

Thumbnails under different names lie at different places, in the same directory or not, so saving
one leaves the others alone (`FileSystem.nodeAt?_saveThumbnail`). Two keys therefore keep their
thumbnails apart (`ThumbnailKey.KeepApart`), unless they have the same name.

They can have the same name. Keys compare the bytes of their paths, but only the text of a path goes
into the name, and ill-formed bytes all have the same text. Such keys are the only exception
(`ThumbnailKey.keepApart_of_legible`), and what is saved for one of them is served to the other
(`ThumbnailKey.not_keepApart_illFormed`).
-/

namespace Thumbnails

namespace FileSystem

variable {files : FileSystem} {directory : Path} {location : Location}
  {key left right : ThumbnailKey}

theorem getLast?_of_place?_thumbnailPath
    (found : files.place? (key.thumbnailPath directory) = some location) :
    location.getLast? = some key.fileName :=
  getLast?_of_place?_child key.isPlainName_fileName found

/-- Two paths that do not lead to the same place. Each of them may lead nowhere. -/
def LeadsApart (files : FileSystem) (left right : Path) : Prop :=
  ∀ place, files.place? left = some place → files.place? right ≠ some place

theorem leadsApart_of_fileName_ne (different : left.fileName ≠ right.fileName)
    (directory directory' : Path) :
    files.LeadsApart (left.thumbnailPath directory) (right.thumbnailPath directory') := by
  intro place leftPlace rightPlace
  have leftName := getLast?_of_place?_thumbnailPath leftPlace
  rw [getLast?_of_place?_thumbnailPath rightPlace] at leftName
  exact different (Option.some.inj leftName).symm

variable [ImageLibrary]

/-- Saving changes what a path leads to only if it leads to the place of the thumbnail. -/
theorem nodeAt?_saveThumbnail_of_leadsApart {path saved : Path} (image : Image)
    (apart : files.LeadsApart saved path) :
    (files.saveThumbnail saved image).2.nodeAt? path = files.nodeAt? path := by
  have effect := files.effect_saveThumbnail saved image
  generalize files.saveThumbnail saved image = result at effect ⊢
  cases effect with
  | unencoded => rfl
  | unsaved => rw [(sameNodes_tokens _ _).nodeAt?_eq]
  | saved _ _ _ admits =>
    rw [(sameNodes_tokens _ _).nodeAt?_eq, nodeAt?_put_file admits.free,
      if_neg (apart _ admits.place)]

/-- Saving a thumbnail leaves those with other names alone. -/
theorem nodeAt?_saveThumbnail (different : left.fileName ≠ right.fileName)
    (directory directory' : Path) (image : Image) :
    (files.saveThumbnail (left.thumbnailPath directory) image).2.nodeAt?
        (right.thumbnailPath directory') =
      files.nodeAt? (right.thumbnailPath directory') :=
  nodeAt?_saveThumbnail_of_leadsApart image
    (leadsApart_of_fileName_ne different directory directory')

/-- Nothing is loaded where there is nothing. -/
theorem loadThumbnail_of_nothing {path : Path} (nothing : files.nodeAt? path = none) :
    ∃ cause, files.loadThumbnail path = .error (.io cause) := by
  unfold loadThumbnail decodeFile
  cases answer : files.read path with
  | error cause => exact ⟨cause, rfl⟩
  | ok data => simp [read_eq_ok_iff.mp answer] at nothing

end FileSystem

namespace LoadJob

variable [ImageLibrary] {files : FileSystem} {job : LoadJob}

/-- A thumbnail is made if none lies on disk. -/
theorem produce_of_nothing (decoder : Decoder) (nothing : files.nodeAt? job.thumbnailPath = none) :
    job.produce decoder files = job.make (decoder.decode files job.key.image) files := by
  rcases FileSystem.loadThumbnail_of_nothing nothing with ⟨cause, failed⟩
  have reused : job.reuse? files = none := by simp [reuse?, failed, Error.isOutOfMemory]
  rw [produce_eq, reused]

end LoadJob

namespace ThumbnailKey

section

variable [ImageLibrary] {left right : ThumbnailKey}

/-- What is kept for one key is never served for another. -/
structure KeepApart (left right : ThumbnailKey) : Prop where
  paths : ∀ directory, left.thumbnailPath directory ≠ right.thumbnailPath directory
  /-- What is saved for one changes nothing at the path of the other. -/
  saved : ∀ (files : FileSystem) directory image,
    (files.saveThumbnail (left.thumbnailPath directory) image).2.nodeAt?
        (right.thumbnailPath directory) =
      files.nodeAt? (right.thumbnailPath directory)
  /-- Where no thumbnail but that of one lies, the other is decoded and made. -/
  unserved : ∀ (files : FileSystem) directory,
    (∀ name, IsPlainName name → name ≠ left.fileName →
      files.nodeAt? (directory.child name) = none) →
    ∀ (job : LoadJob) decoder, job.key = right → job.directory = directory →
      job.produce decoder files = job.make (decoder.decode files right.image) files

theorem keepApart_of_fileName_ne (different : left.fileName ≠ right.fileName) :
    left.KeepApart right where
  paths directory same := different (directory.child_injective same)
  saved files directory image :=
    FileSystem.nodeAt?_saveThumbnail different directory directory image
  unserved := by
    rintro files directory alone job decoder rfl rfl
    exact job.produce_of_nothing decoder
      (alone _ job.key.isPlainName_fileName different.symm)

/-- Different keys keep their thumbnails apart, unless their paths are different bytes with the
same text. -/
theorem keepApart_of_legible (different : left ≠ right)
    (legible : left.pathText = right.pathText → left.image.path = right.image.path)
    (separates : Sha256.Separates left.identity right.identity) : left.KeepApart right := by
  apply keepApart_of_fileName_ne
  intro same
  rcases parts_eq_of_fileName_eq same separates with ⟨texts, pages, versions⟩
  have paths := legible texts
  rcases left with ⟨⟨leftPath, leftPage, leftNormal⟩, leftVersion⟩
  rcases right with ⟨⟨rightPath, rightPage, rightNormal⟩, rightVersion⟩
  simp only at paths pages versions
  subst paths pages versions
  exact different rfl

end

section

attribute [local instance] ImageLibrary.plain

/-- Two pages of one file, one of them under a version that holds a zero. -/
theorem keepApart_zeroVersion :
    of ⟨[0x2f, 0x73]⟩ 1 "v" ≠ of ⟨[0x2f, 0x73]⟩ 1 "v\x00" ∧
      (of ⟨[0x2f, 0x73]⟩ 1 "v").KeepApart (of ⟨[0x2f, 0x73]⟩ 1 "v\x00") := by
  have different : of ⟨[0x2f, 0x73]⟩ 1 "v" ≠ of ⟨[0x2f, 0x73]⟩ 1 "v\x00" := by decide +kernel
  exact ⟨different, keepApart_of_legible different (by decide +kernel) (by
    intro digests
    exact absurd digests (by decide +kernel))⟩

/-- A byte that is no text by itself, as the name of a file. -/
def illFormed (byte : UInt8) : ThumbnailKey :=
  of ⟨[0x2f, 0x73, 0x2f, byte]⟩ 0 "v1"

/-- Keys whose paths are different bytes with the same text share a thumbnail: what was saved for
one of them is loaded for the other. -/
theorem not_keepApart_illFormed :
    illFormed 0xff ≠ illFormed 0xfe ∧
      Sha256.Separates (illFormed 0xff).identity (illFormed 0xfe).identity ∧
      (∀ directory,
        (illFormed 0xff).thumbnailPath directory = (illFormed 0xfe).thumbnailPath directory) ∧
      (((FileSystem.withWorkingDirectory [[0x77]]).saveThumbnail
          ((illFormed 0xff).thumbnailPath ⟨[]⟩) ⟨⟨2, 2⟩, .l8, [10, 10, 10, 10]⟩).2.loadThumbnail
            ((illFormed 0xfe).thumbnailPath ⟨[]⟩)).toOption =
        some ⟨⟨2, 2⟩, .l8, [10, 10, 10, 10]⟩ ∧
      ¬(illFormed 0xff).KeepApart (illFormed 0xfe) := by
  have identities : (illFormed 0xff).identity = (illFormed 0xfe).identity := by decide +kernel
  have names : (illFormed 0xff).fileName = (illFormed 0xfe).fileName := by decide +kernel
  have paths : ∀ directory,
      (illFormed 0xff).thumbnailPath directory = (illFormed 0xfe).thumbnailPath directory := by
    intro directory
    rw [thumbnailPath, thumbnailPath, names]
  exact ⟨by decide +kernel, fun _ => identities, paths, by decide +kernel,
    fun apart => apart.paths ⟨[]⟩ (paths _)⟩

end

end ThumbnailKey

end Thumbnails
