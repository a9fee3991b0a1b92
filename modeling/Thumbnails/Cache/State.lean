import Thumbnails.Cache.Result
import Thumbnails.Config.Basic
import Thumbnails.Store.Basic

/-!
# The state of a cache

A record is queued by the request that misses, in progress once the loader has taken it, and then
loaded, failed or gone:

* a record that waited too long is taken from the queue as expired and then removed;
* a loaded record stays until it is evicted or forgotten;
* a failed one stays until it is forgotten.

Waiting is measured by a clock that counts started loads. Making every queued record stale at once
moves the clock past the threshold, in constant time.

The operations here are the steps that happen under the lock of the cache. They touch no file, run
no decoder and tell no subscriber.
-/

namespace Thumbnails

/-- What the lock of a cache guards. -/
structure CacheState where
  store : Store
  directory : Path
  maxSize : Size
  /-- The number of loaded records kept, at least one. -/
  capacity : Nat
  threshold : Nat
  /-- The expiry clock. -/
  clock : Nat
  loadsStarted : Nat
  shuttingDown : Bool
  /-- Whether a loader runs, or somebody has taken it on to start one. -/
  loaderStarted : Bool

def counterLimit : Nat :=
  UInt64.size - 1

def saturatingAdd (counter amount : Nat) : Nat :=
  min (counter + amount) counterLimit

namespace CacheState

def new (config : Config) (directory : Path) : CacheState :=
  { store := Store.empty
    directory
    maxSize := config.maxThumbnailSize
    capacity := max config.maxCachedPixmaps.toNat 1
    threshold := min config.expirationThreshold.toNat maxExpirationThreshold.toNat
    clock := 0
    loadsStarted := 0
    shuttingDown := false
    loaderStarted := false }

def stats (state : CacheState) : CacheStats :=
  { records := state.store.size
    queued := state.store.queuedCount
    loaded := state.store.loadedCount
    loadAttempts := state.loadsStarted }

/-- The answer for a key whose load has come to its end. A thumbnail that is found this way becomes
the one used most recently. -/
def lookup (state : CacheState) (key : ThumbnailKey) : Option RequestStatus × CacheState :=
  match state.store.find? key with
  | none => (none, state)
  | some id =>
    match state.store.get? id with
    | none => (none, state)
    | some record =>
      match record.status with
      | .loaded =>
        let used := { state with store := state.store.moveToLoadedTail id }
        match record.pixmap with
        | some pixmap => (some (.loaded pixmap), used)
        | none => (some (.loadFailed none), used)
      | .loadFailed => (some (.loadFailed record.pixmap), state)
      | .queued | .inProgress => (none, state)

/-- Takes on the start of a loader unless one runs. -/
def claimStart (state : CacheState) (otherwise : Wake) : Wake × CacheState :=
  if state.loaderStarted then (otherwise, state)
  else (.start, { state with loaderStarted := true })

/-- Hands back the start of a loader that does not run. The next request takes it on again. -/
def loaderLost (state : CacheState) : CacheState :=
  { state with loaderStarted := false }

/-- Adds a subscriber to a record that waits or is being loaded. A record that waits moves to the
front, because the latest request is served first. -/
def join (state : CacheState) (id : RecordId) (subscriber : SubscriberId) : CacheState :=
  let joined := state.store.update id fun record =>
    { record with subscribers := record.subscribers ++ [subscriber] }
  match state.store.get? id with
  | none => state
  | some record =>
    if record.status = .queued then { state with store := joined.moveToLoadFront id }
    else { state with store := joined }

def enqueue (state : CacheState) (key : ThumbnailKey) (generator : Generator)
    (subscriber : SubscriberId) : CacheState :=
  let record := { Record.queued key generator state.clock with subscribers := [subscriber] }
  { state with store := (state.store.insert record).2 }

/-- Answers a request from memory, or makes sure that a load of the key is under way. A loader that
sleeps has to be told only of the first queued record, because it sleeps only when none is. -/
def request (state : CacheState) (key : ThumbnailKey) (generator : Generator)
    (subscriber : SubscriberId) : RequestStatus × Wake × CacheState :=
  if state.shuttingDown then (.loadFailed none, .nothing, state)
  else
    match state.lookup key with
    | (some answer, used) => (answer, .nothing, used)
    | (none, _) =>
      match state.store.find? key with
      | some id =>
        let (wake, claimed) := (state.join id subscriber).claimStart .nothing
        (.queued, wake, claimed)
      | none =>
        let queued := state.enqueue key generator subscriber
        let signal := if queued.store.queuedCount = 1 then Wake.notify else .nothing
        let (wake, claimed) := queued.claimStart signal
        (.queued, wake, claimed)

/-- The answer for a key without making a load. What has no end yet counts as failed. -/
def peek (state : CacheState) (key : ThumbnailKey) : RequestStatus × CacheState :=
  if state.shuttingDown then (.loadFailed none, state)
  else
    let (answer, used) := state.lookup key
    (answer.getD (.loadFailed none), used)

/-- Makes every queued record stale by moving the clock past the threshold. -/
def expireQueued (state : CacheState) : CacheState :=
  if state.store.queuedCount > 0 then
    { state with clock := saturatingAdd (saturatingAdd state.clock state.threshold) 1 }
  else state

/-- Moves the cache to another directory, unless it is the same one, and says whether it did.
Requests that waited for the old one become stale. -/
def changeDirectory (state : CacheState) (directory : Path) : Bool × CacheState :=
  if directory.sameComponents state.directory then (false, state)
  else (true, { state with directory }.expireQueued)

/-- Takes the first record of the load order if it is queued. One that has waited through more
loads than the threshold is stale. -/
def nextJob (state : CacheState) : Option Dequeued × CacheState :=
  match state.store.load.head with
  | none => (none, state)
  | some slot =>
    match state.store.recordAt? slot with
    | none => (none, state)
    | some record =>
      if record.status ≠ .queued then (none, state)
      else
        let id := state.store.idAt slot
        let taken := { state with
          store := (state.store.setStatus id .inProgress).moveToLoadBack id }
        if state.clock - record.createdAt > state.threshold then (some (.expired id), taken)
        else
          let job : LoadJob :=
            { id
              key := record.key
              directory := state.directory
              maxSize := state.maxSize
              generator := record.generator }
          (some (.load job), { taken with
            clock := saturatingAdd state.clock 1
            loadsStarted := saturatingAdd state.loadsStarted 1 })

/-- Removes the least recently used records, at most as many as a number, while too many are
loaded. -/
def evictUpTo (state : CacheState) : Nat → CacheState
  | 0 => state
  | rounds + 1 =>
    if state.store.loadedCount < state.capacity then state
    else
      match state.store.leastRecentlyUsed? with
      | none => state
      | some victim =>
        evictUpTo { state with store := (state.store.remove victim).2 } rounds

/-- Removes the least recently used records until there is room for one more. -/
def evictExcess (state : CacheState) : CacheState :=
  state.evictUpTo state.store.loadedCount

/-- Gives a record its final status and its pixmap, and takes its subscribers to be told. -/
def finish (state : CacheState) (id : RecordId) (pixmap : Option Image) (status : LoadStatus) :
    Option Completion × CacheState :=
  match state.store.get? id with
  | none => (none, state)
  | some record =>
    let store := state.store.update id fun record => { record with pixmap, subscribers := [] }
    (some ⟨record.subscribers, ⟨status, pixmap⟩⟩, { state with store })

/-- Applies a result of the loader. A result that no longer applies changes nothing: the cache is
shutting down, or the record is gone or not in progress. -/
def complete (state : CacheState) (result : LoadResult) : Option Completion × CacheState :=
  if state.shuttingDown then (none, state)
  else
    match state.store.get? result.id with
    | none => (none, state)
    | some record =>
      if record.status ≠ .inProgress then (none, state)
      else
        match result.status, result.pixmap with
        | .loaded, some pixmap =>
          let roomy := state.evictExcess
          let store := ((roomy.store.setStatus result.id .loaded).moveToLoadedTail
            result.id).moveToLoadBack result.id
          { roomy with store }.finish result.id (some pixmap) .loaded
        | .requestExpired, _ =>
          let (removed, store) := state.store.remove result.id
          (removed.map fun record => ⟨record.subscribers, ⟨.requestExpired, none⟩⟩,
            { state with store })
        | .loaded, none =>
          let store := (state.store.setStatus result.id .loadFailed).moveToLoadBack result.id
          { state with store }.finish result.id none .loadFailed
        | .loadFailed, pixmap =>
          let store := (state.store.setStatus result.id .loadFailed).moveToLoadBack result.id
          { state with store }.finish result.id pixmap .loadFailed

/-- Forgets a record whose load has come to its end, and says whether there was one. -/
def forgetFinished (state : CacheState) (key : ThumbnailKey) : Bool × CacheState :=
  match state.store.find? key with
  | none => (false, state)
  | some id =>
    match state.store.get? id with
    | none => (false, state)
    | some record =>
      if record.status.isFinished then
        (true, { state with store := (state.store.remove id).2 })
      else (false, state)

def shutDown (state : CacheState) : CacheState :=
  { state with shuttingDown := true }

end CacheState

end Thumbnails
