import Thumbnails.Cache.Result
import Thumbnails.Decoder
import Thumbnails.Key.FileName

/-!
# Loading

A job is done in two parts. First the thumbnail that lies on disk is tried: if it can be read, or if
memory ran out over it, that decides the job. Otherwise the source is decoded, a thumbnail is made
and saved. A thumbnail that cannot be saved is delivered all the same.

Whatever happens, a job has exactly one result.
-/

namespace Thumbnails

namespace LoadJob

variable {m : Type → Type} [Monad m] [ImageLibrary]

def thumbnailPath (job : LoadJob) : Path :=
  job.key.thumbnailPath job.directory

/-- The outcome that the thumbnail on disk decides. -/
def reuse? (job : LoadJob) (files : FileSystem) : Option (Outcome Image) :=
  match files.loadThumbnail job.thumbnailPath with
  | .ok existing => some (.done existing)
  | .error error => if error.isOutOfMemory then some (.failed error) else none

/-- Makes a thumbnail from what the decoder gave, and saves it if that is possible. -/
def makeWith (job : LoadJob) (generate : Image → Size → m (Outcome Image))
    (decoded : Outcome Image) (files : FileSystem) : m (Outcome Image × FileSystem) :=
  match decoded with
  | .failed error => pure (.failed error, files)
  | .crashed => pure (.crashed, files)
  | .done source => do
    match ← generate source job.maxSize with
    | .failed error => pure (.failed error, files)
    | .crashed => pure (.crashed, files)
    | .done thumbnail =>
      pure (.done thumbnail, (files.saveThumbnail job.thumbnailPath thumbnail).2)

/-- Does a job with a decoder and a generator that may do more than give a value. -/
def produceWith (job : LoadJob) (decode : PageId → m (Outcome Image))
    (generate : Image → Size → m (Outcome Image)) (files : FileSystem) :
    m (Outcome Image × FileSystem) :=
  match job.reuse? files with
  | some outcome => pure (outcome, files)
  | none => do job.makeWith generate (← decode job.key.image) files

def make (job : LoadJob) (decoded : Outcome Image) (files : FileSystem) :
    Outcome Image × FileSystem :=
  Id.run (job.makeWith (fun source box => job.generator.generate source box) decoded files)

def produce (job : LoadJob) (decoder : Decoder) (files : FileSystem) :
    Outcome Image × FileSystem :=
  Id.run (job.produceWith (fun image => decoder.decode files image)
    (fun source box => job.generator.generate source box) files)

theorem make_eq (job : LoadJob) (decoded : Outcome Image) (files : FileSystem) :
    job.make decoded files =
      match decoded.bind fun source => job.generator.generate source job.maxSize with
      | .done thumbnail => (.done thumbnail, (files.saveThumbnail job.thumbnailPath thumbnail).2)
      | .failed error => (.failed error, files)
      | .crashed => (.crashed, files) := by
  cases decoded with
  | failed error => rfl
  | crashed => rfl
  | done source =>
    simp only [make, makeWith, Outcome.bind, Id.run, bind]
    cases job.generator.generate source job.maxSize <;> rfl

theorem produce_eq (job : LoadJob) (decoder : Decoder) (files : FileSystem) :
    job.produce decoder files =
      match job.reuse? files with
      | some outcome => (outcome, files)
      | none => job.make (decoder.decode files job.key.image) files := by
  simp only [produce, produceWith]
  cases job.reuse? files <;> rfl

def result (job : LoadJob) : Outcome Image → LoadResult
  | .done thumbnail => .ofImage job.id thumbnail
  | .failed _ => .failure job.id
  | .crashed => .failure job.id

/-- What the handler for exhausted memory is told after a job, if anything. -/
def memoryReport? (job : LoadJob) : Outcome Image → Option String
  | .failed error =>
    if error.isOutOfMemory then some ("thumbnail " ++ job.key.display ++ ": " ++ error.message)
    else none
  | .done _ => none
  | .crashed => none

end LoadJob

end Thumbnails
