import Thumbnails.Generator
import Thumbnails.Key.Basic

/-!
# Records

A record is what the cache remembers about one key: how far its load has come, the thumbnail once
there is one, who waits for it, and when it was asked for.
-/

namespace Thumbnails

inductive RecordStatus where
  | queued
  | inProgress
  | loaded
  | loadFailed
  deriving DecidableEq, Repr

/-- Names a record for as long as it exists. A slot that is used again gets another generation. -/
structure RecordId where
  slot : Nat
  generation : UInt32
  deriving DecidableEq, Repr

/-- Names a handler that waits for a thumbnail. -/
abbrev SubscriberId := Nat

structure Record where
  key : ThumbnailKey
  status : RecordStatus
  pixmap : Option Image
  subscribers : List SubscriberId
  generator : Generator
  /-- The number of attempts on the expiry clock when the record was made. -/
  createdAt : Nat

namespace RecordStatus

def name : RecordStatus → String
  | queued => "Queued"
  | inProgress => "InProgress"
  | loaded => "Loaded"
  | loadFailed => "LoadFailed"

/-- Whether a load has come to its end. -/
def isFinished : RecordStatus → Bool
  | loaded | loadFailed => true
  | queued | inProgress => false

end RecordStatus

def RecordId.display (id : RecordId) : String :=
  toString id.slot ++ "." ++ toString id.generation.toNat

namespace Record

def queued (key : ThumbnailKey) (generator : Generator) (createdAt : Nat) : Record :=
  { key, status := .queued, pixmap := none, subscribers := [], generator, createdAt }

def describe (record : Record) : String :=
  "Record \x7b key: " ++ record.key.describe ++ ", status: " ++ record.status.name ++
    ", has_pixmap: " ++ toString record.pixmap.isSome ++ ", subscribers: " ++
    toString record.subscribers.length ++ ", created_at_attempt: " ++
    toString record.createdAt ++ " \x7d"

end Record

end Thumbnails
