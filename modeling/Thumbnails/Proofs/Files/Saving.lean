import Thumbnails.Proofs.Files.Handle

/-!
# Saving without a trace

Saving an image goes through stages: it is encoded, a temporary file is made, written to and stored,
and moved to its target. A stage may fail over the path, and it may fail by itself, because a disk
is full or breaks (`SaveAnswers`). At each stage other things are there to be removed. Wherever a
save fails, the files are the very files that were there before, and where it succeeds, the target
is the only file that differs (`FileSystem.savesCleanly`).
-/

namespace Thumbnails

namespace FileSystem

variable [ImageLibrary] {files : FileSystem} {path : Path} {image : Image}

/-- A save of which no stage fails, neither by itself nor over the path. -/
structure Commits (files : FileSystem) (path : Path) (image : Image) : Prop where
  encoded : ∃ data, ImageLibrary.encode image = .ok data
  sound : files.saving files.tokens = .sound
  started : ∃ begun, WriteHandle.start files path = .ok begun
  admitted : ∃ location, files.Admits path location

/-- What becomes of the files when an image is saved. -/
structure SavesCleanly (files : FileSystem) (path : Path) (image : Image) : Prop where
  /-- Apart from the count of names that were tried, an error leaves everything as it was. -/
  failed : ∀ error next, files.saveThumbnail path image = (.error error, next) →
    next = { files with tokens := next.tokens } ∧
      ((∃ cause, ImageLibrary.encode image = .error cause ∧ error = .ofCodec cause) ∨
        ∃ cause, error = .persist path cause)
  /-- An image that cannot be encoded fails before any name is tried. -/
  unencoded : ∀ cause, ImageLibrary.encode image = .error cause →
    files.saveThumbnail path image = (.error (.ofCodec cause), files)
  saved : ∀ next, files.saveThumbnail path image = (.ok (), next) → ∃ data location,
    ImageLibrary.encode image = .ok data ∧ files.Admits path location ∧
      next = { files.put location (.file (.bytes data)) with tokens := next.tokens } ∧
      next.nodeAt? path = some (.file (.bytes data)) ∧
      ∀ other, other ≠ location → next.node? other = files.node? other
  saved_iff : (files.saveThumbnail path image).1 = .ok () ↔ files.Commits path image

theorem saveThumbnail_of_unencoded {cause : CodecError}
    (failed : ImageLibrary.encode image = .error cause) :
    files.saveThumbnail path image = (.error (.ofCodec cause), files) := by
  rw [saveThumbnail, failed]

theorem saveThumbnail_fst_eq_ok_iff :
    (files.saveThumbnail path image).1 = .ok () ↔ files.Commits path image := by
  constructor
  · intro saved
    have effect := files.effect_saveThumbnail path image
    generalize files.saveThumbnail path image = result at effect saved
    cases effect with
    | unencoded => cases saved
    | unsaved => cases saved
    | saved encoded sound started admits =>
      exact ⟨⟨_, encoded⟩, sound, ⟨_, started⟩, _, admits⟩
  · rintro ⟨⟨data, encoded⟩, sound, ⟨⟨handle, next⟩, started⟩, location, admits⟩
    rcases WriteHandle.conclude_of_admits started admits data with ⟨saved, concluded⟩
    rw [saveThumbnail, encoded]
    simp only [sound, SaveAnswers.sound, started] at concluded ⊢
    rw [concluded]

/-- Whatever goes wrong, a save leaves no trace unless it succeeds, and then it leaves just the
image at its target. -/
theorem savesCleanly (files : FileSystem) (path : Path) (image : Image) :
    files.SavesCleanly path image := by
  refine ⟨?failed, fun _ => saveThumbnail_of_unencoded, ?saved, saveThumbnail_fst_eq_ok_iff⟩
  case failed =>
    intro error next failed
    have effect := files.effect_saveThumbnail path image
    rw [failed] at effect
    cases effect with
    | unencoded encoding => exact ⟨rfl, Or.inl ⟨_, encoding, rfl⟩⟩
    | unsaved => exact ⟨rfl, Or.inr ⟨_, rfl⟩⟩
  case saved =>
    intro next saved
    rcases exists_put_of_saved saved with ⟨data, location, encoded, admits, nextEq, present⟩
    refine ⟨data, location, encoded, admits, nextEq, present, ?_⟩
    intro other elsewhere
    rw [nextEq, (sameNodes_tokens _ _).node?,
      node?_put_of_ne_root (ne_root_of_not_isDirectory admits.free), if_neg elsewhere]

end FileSystem

end Thumbnails
