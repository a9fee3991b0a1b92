import Thumbnails.Store.Record

/-!
# Answers, jobs and results

What goes between the cache, the loader and whoever asks: the immediate answer to a request, the
work that the loader takes, the result that it gives back, and what subscribers are told.
-/

namespace Thumbnails

inductive RequestStatus where
  /-- The thumbnail is in memory, and nobody will be told later. -/
  | loaded (pixmap : Image)
  /-- An earlier load failed, or the cache is shutting down. Nobody will be told later. -/
  | loadFailed (pixmap : Option Image)
  /-- The subscriber will be told. -/
  | queued
  deriving DecidableEq, Repr

inductive LoadStatus where
  | loaded
  | loadFailed
  /-- The request was dropped because it had waited too long. -/
  | requestExpired
  deriving DecidableEq, Repr

/-- What has to be done for the loader after a request. -/
inductive Wake where
  | nothing
  | start
  | notify
  deriving DecidableEq, Repr

structure LoadJob where
  id : RecordId
  key : ThumbnailKey
  directory : Path
  maxSize : Size
  generator : Generator

inductive Dequeued where
  | expired (id : RecordId)
  | load (job : LoadJob)

structure LoadResult where
  id : RecordId
  status : LoadStatus
  pixmap : Option Image
  deriving DecidableEq, Repr

structure Notice where
  status : LoadStatus
  pixmap : Option Image
  deriving DecidableEq, Repr

/-- The subscribers to tell, in the order of their requests, and what to tell them. -/
structure Completion where
  subscribers : List SubscriberId
  notice : Notice
  deriving DecidableEq, Repr

structure CacheStats where
  records : Nat
  queued : Nat
  loaded : Nat
  loadAttempts : Nat
  deriving DecidableEq, Repr

namespace RequestStatus

def name : RequestStatus → String
  | loaded _ => "Loaded"
  | loadFailed _ => "LoadFailed"
  | queued => "Queued"

def pixmap? : RequestStatus → Option Image
  | loaded pixmap => some pixmap
  | loadFailed pixmap => pixmap
  | queued => none

def isLoaded : RequestStatus → Bool
  | loaded _ => true
  | _ => false

def isQueued : RequestStatus → Bool
  | queued => true
  | _ => false

end RequestStatus

def LoadStatus.name : LoadStatus → String
  | loaded => "Loaded"
  | loadFailed => "LoadFailed"
  | requestExpired => "RequestExpired"

def Wake.name : Wake → String
  | nothing => "Nothing"
  | start => "Start"
  | notify => "Notify"

def Dequeued.id : Dequeued → RecordId
  | expired id => id
  | load job => job.id

def Notice.isLoaded (notice : Notice) : Bool :=
  notice.status = .loaded

namespace LoadResult

def ofImage (id : RecordId) (pixmap : Image) : LoadResult :=
  ⟨id, .loaded, some pixmap⟩

def failure (id : RecordId) : LoadResult :=
  ⟨id, .loadFailed, none⟩

def expiry (id : RecordId) : LoadResult :=
  ⟨id, .requestExpired, none⟩

end LoadResult

end Thumbnails
