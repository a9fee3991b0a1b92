import Thumbnails.Files.Edit
import Thumbnails.Proofs.Key.Separation

/-!
# Files that stay

A file stays where it is (`FileSystem.Retains`) when a thumbnail is saved at another place, and when
a directory is made. So a thumbnail that lies on disk is loaded again as long as only such things
happen. A job saves its own thumbnail at another place, because it makes one only if there was none
to be loaded.
-/

namespace Thumbnails

namespace FileSystem

variable {files next saved : FileSystem} {path target : Path} {image : Image}

/-- A file system in which a path leads to the same file as before, if it led to a file. -/
structure Retains (next files : FileSystem) (path : Path) : Prop where
  workingDirectory : next.workingDirectory = files.workingDirectory
  file {content : Content} : files.nodeAt? path = some (.file content) →
    next.nodeAt? path = some (.file content)

theorem Retains.refl (files : FileSystem) (path : Path) : files.Retains files path :=
  ⟨rfl, id⟩

/-- A new directory takes the place of nothing. -/
theorem retains_createDirectory {directory : Path}
    (made : files.createDirectory directory = .ok next) (path : Path) :
    next.Retains files path := by
  rcases createDirectory_eq_ok made with ⟨location, free, rfl⟩
  have wider : (files.put location .directory).Extends files := extends_put fun _ => rfl
  refine ⟨rfl, ?_⟩
  intro content found
  rcases nodeAt?_eq_some_iff.mp found with ⟨place, reached, present⟩
  refine nodeAt?_eq_some_iff.mpr ⟨place, wider.place? reached, ?_⟩
  have elsewhere : place ≠ location := by
    rintro rfl
    cases free.symm.trans present
  have notRoot : place ≠ [] := by
    rintro rfl
    cases (node?_root files).symm.trans present
  rw [node?_put, if_neg notRoot, if_neg elsewhere, present]

theorem retains_ensureDirectory (directory path : Path) :
    (files.ensureDirectory directory).2.Retains files path := by
  unfold ensureDirectory
  cases making : files.createDirectory directory with
  | ok created => exact retains_createDirectory making path
  | error cause =>
    simp only
    split
    · exact .refl files path
    · exact .refl files path

/-- Paths that lead to different things do not lead to the same place. -/
theorem leadsApart_of_nodeAt?_ne (different : files.nodeAt? target ≠ files.nodeAt? path) :
    files.LeadsApart target path := by
  intro place reached found
  exact different (by rw [nodeAt?_of_place? reached, nodeAt?_of_place? found])

variable [ImageLibrary]

theorem workingDirectory_saveThumbnail (files : FileSystem) (target : Path) (image : Image) :
    (files.saveThumbnail target image).2.workingDirectory = files.workingDirectory := by
  have effect := files.effect_saveThumbnail target image
  generalize files.saveThumbnail target image = result at effect ⊢
  cases effect <;> rfl

theorem retains_saveThumbnail (image : Image) (apart : files.LeadsApart target path) :
    (files.saveThumbnail target image).2.Retains files path :=
  ⟨files.workingDirectory_saveThumbnail target image,
    (nodeAt?_saveThumbnail_of_leadsApart image apart).trans⟩

theorem loadThumbnail_eq_ok_iff : files.loadThumbnail path = .ok image ↔
    ∃ data, files.nodeAt? path = some (.file (.bytes data)) ∧
      ImageLibrary.decode data standardAllocLimit = .ok image := by
  simp only [← read_eq_ok_iff, loadThumbnail, decodeFile]
  cases files.read path with
  | error cause => simp
  | ok data => cases decoding : ImageLibrary.decode data standardAllocLimit <;> simp [decoding]

theorem Retains.loadThumbnail (retains : next.Retains files path)
    (loads : files.loadThumbnail path = .ok image) : next.loadThumbnail path = .ok image := by
  rcases loadThumbnail_eq_ok_iff.mp loads with ⟨data, found, decoding⟩
  exact loadThumbnail_eq_ok_iff.mpr ⟨data, retains.file found, decoding⟩

end FileSystem

/-- An edit after which a path still leads to the same file, whatever else there is. -/
def FileEdit.Spares (edit : FileEdit) (path kept : Path) (working : Location) : Prop :=
  ∀ files : FileSystem, files.workingDirectory = working →
    (edit.apply files path).2.Retains files kept

theorem FileEdit.spares_createDirectory (path kept : Path) (working : Location) :
    FileEdit.createDirectory.Spares path kept working := by
  intro files _
  simp only [FileEdit.apply, orUnchanged]
  split
  · rename_i made
    exact FileSystem.retains_createDirectory made kept
  · exact .refl files kept

variable [ImageLibrary]

/-- An image that is decoded again from the bytes it is encoded as. -/
def Image.Survives (image : Image) : Prop :=
  ∀ data, ImageLibrary.encode image = .ok data →
    ImageLibrary.decode data standardAllocLimit = .ok image

theorem FileSystem.loadThumbnail_saveThumbnail {files saved : FileSystem} {path : Path}
    {image : Image} (survives : image.Survives)
    (saves : files.saveThumbnail path image = (.ok (), saved)) :
    saved.loadThumbnail path = .ok image := by
  rcases exists_put_of_saved saves with ⟨data, _, encoded, _, _, present⟩
  exact loadThumbnail_eq_ok_iff.mpr ⟨data, present, survives data encoded⟩

namespace LoadJob

variable {files : FileSystem} {job : LoadJob} {path : Path} {image : Image}

theorem retains_make (apart : files.LeadsApart job.thumbnailPath path) (decoded : Outcome Image) :
    (job.make decoded files).2.Retains files path := by
  rw [make_eq]
  split
  · exact FileSystem.retains_saveThumbnail _ apart
  · exact .refl files path
  · exact .refl files path

/-- A job that has to make a thumbnail does not save it where one can be loaded. -/
theorem leadsApart_of_unused (unused : job.reuse? files = none)
    (loads : files.loadThumbnail path = .ok image) : files.LeadsApart job.thumbnailPath path := by
  apply FileSystem.leadsApart_of_nodeAt?_ne
  intro same
  have loaded : files.loadThumbnail job.thumbnailPath = .ok image := by
    rw [FileSystem.loadThumbnail_eq_ok_iff, same]
    exact FileSystem.loadThumbnail_eq_ok_iff.mp loads
  simp [reuse?, loaded] at unused

end LoadJob

end Thumbnails
