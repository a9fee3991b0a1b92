import Thumbnails.Cache.Dispatch
import Thumbnails.Cache.Loader
import Thumbnails.Proofs.Cache.Run

/-!
# Threads that share a cache

Any number of threads use one cache. What they do to it falls into moves, each under one lock or on
one channel, and the moves of different threads come in any order:

* a request leaves its thread with a wake-up, which is carried out later: a loader is started, or
  that fails and the start is handed back, or the loader is notified;
* a loader looks for work, and goes to sleep in the same move if there is none. It loads what it
  took, posts the result, and calls the notifier before it looks again;
* a thread that drains the cache receives a result in one move and applies it in another one.
  Handlers are called after that, so what they do are moves as well.

Where foreign code is called outside of a job, a loader may break down. It hands back the start of a
loader as the last thing it does.

A move that cannot be made changes nothing, so every list of moves is a run.
-/

namespace Thumbnails

/-- What a loader is about to do. -/
inductive LoaderPhase where
  | looking
  | asleep
  | holding (dequeued : Dequeued)
  | finished (result : LoadResult)
  | notifying
  | dying

/-- A result that a thread has received and not yet applied. -/
structure Receipt where
  thread : Nat
  result : LoadResult
  deriving DecidableEq

/-- A cache with everything that its threads have in hand. -/
structure SharedCache where
  state : CacheState
  inbox : Inbox
  loaders : List LoaderPhase
  received : List Receipt
  /-- The threads that have taken it on to start a loader, and are yet to do it. -/
  starts : Nat
  /-- The threads that are yet to notify the loader. -/
  notices : Nat
  /-- The records that were made so far, in order. The next three go back as far. -/
  created : List RecordId
  dequeued : List RecordId
  applied : List LoadResult
  /-- The threads that received results. -/
  drainers : List Nat

/-- What a thread can do in one go. Loaders are told apart by their position. -/
inductive Move where
  | request (key : ThumbnailKey) (generator : Generator) (subscriber : SubscriberId)
  | peek (key : ThumbnailKey)
  /-- The last step of making a thumbnail anew, after its file was written. -/
  | recreate (key : ThumbnailKey)
  | changeDirectory (directory : Path)
  | start
  | startFails
  | notify
  | look (loader : Nat)
  | rouse (loader : Nat)
  | load (loader : Nat) (outcome : Outcome Image)
  | post (loader : Nat)
  | notified (loader : Nat)
  | crash (loader : Nat)
  | handBack (loader : Nat)
  | receive (thread : Nat)
  | apply (thread : Nat)
  | shutDown
  /-- The cache is dropped, which closes the inbox. -/
  | close

namespace LoaderPhase

def hand : LoaderPhase → List RecordId
  | holding dequeued => [dequeued.id]
  | finished result => [result.id]
  | looking | asleep | notifying | dying => []

def roused : LoaderPhase → LoaderPhase
  | asleep => looking
  | phase => phase

end LoaderPhase

/-- The result of what was taken from the queue. A request that had waited too long has no
outcome. -/
def Dequeued.result : Dequeued → Outcome Image → LoadResult
  | .expired id, _ => .expiry id
  | .load job, outcome => job.result outcome

theorem Dequeued.result_id (dequeued : Dequeued) (outcome : Outcome Image) :
    (dequeued.result outcome).id = dequeued.id := by
  cases dequeued with
  | expired id => rfl
  | load job => cases outcome <;> rfl

/-- Whether the out-of-memory handler, the notifier and the copying of generators do as they should
in a move. -/
def Move.isCalm : Move → Bool
  | crash _ => false
  | _ => true

namespace SharedCache

def new (config : Config) (directory : Path) : SharedCache :=
  { state := CacheState.new config directory
    inbox := Inbox.empty
    loaders := []
    received := []
    starts := 0
    notices := 0
    created := []
    dequeued := []
    applied := []
    drainers := [] }

/-- The records whose results are under way, those that were posted earlier first. -/
def inFlight (cache : SharedCache) : List RecordId :=
  cache.received.map (fun receipt => receipt.result.id) ++
    (cache.inbox.results.map LoadResult.id ++ cache.loaders.flatMap LoaderPhase.hand)

def setPhase (cache : SharedCache) (loader : Nat) (phase : LoaderPhase) : SharedCache :=
  { cache with loaders := cache.loaders.set loader phase }

def dropLoader (cache : SharedCache) (loader : Nat) : SharedCache :=
  { cache with loaders := cache.loaders.eraseIdx loader }

def underLock (cache : SharedCache) (call : CacheCall) : SharedCache :=
  { cache with state := (cache.state.perform call).2 }

/-- The record that a request made for its key, if there was none. -/
def recordMade (before after : CacheState) (key : ThumbnailKey) : List RecordId :=
  match before.store.find? key with
  | none => (after.store.find? key).toList
  | some _ => []

def request (cache : SharedCache) (key : ThumbnailKey) (generator : Generator)
    (subscriber : SubscriberId) : SharedCache :=
  let (_, wake, state) := cache.state.request key generator subscriber
  { cache with
    state
    starts := if wake = .start then cache.starts + 1 else cache.starts
    notices := if wake = .notify then cache.notices + 1 else cache.notices
    created := cache.created ++ recordMade cache.state state key }

def start (cache : SharedCache) : SharedCache :=
  match cache.starts with
  | 0 => cache
  | starts + 1 => { cache with starts, loaders := cache.loaders ++ [.looking] }

def startFails (cache : SharedCache) : SharedCache :=
  match cache.starts with
  | 0 => cache
  | starts + 1 => { cache with starts, state := cache.state.loaderLost }

def notify (cache : SharedCache) : SharedCache :=
  match cache.notices with
  | 0 => cache
  | notices + 1 =>
    { cache with notices, loaders := cache.loaders.map LoaderPhase.roused }

/-- Looking for work and going to sleep is one move, because it is done under one lock. -/
def look (cache : SharedCache) (loader : Nat) : SharedCache :=
  match cache.loaders[loader]? with
  | some .looking =>
    if cache.state.shuttingDown then cache.dropLoader loader
    else
      match cache.state.nextJob with
      | (none, state) => { cache with state }.setPhase loader .asleep
      | (some dequeued, state) =>
        { cache with state, dequeued := cache.dequeued ++ [dequeued.id] }.setPhase loader
          (.holding dequeued)
  | _ => cache

/-- A loader may wake up without a reason, and does so when the cache begins to shut down. -/
def rouse (cache : SharedCache) (loader : Nat) : SharedCache :=
  match cache.loaders[loader]? with
  | some .asleep => cache.setPhase loader .looking
  | _ => cache

def load (cache : SharedCache) (loader : Nat) (outcome : Outcome Image) : SharedCache :=
  match cache.loaders[loader]? with
  | some (.holding dequeued) => cache.setPhase loader (.finished (dequeued.result outcome))
  | _ => cache

/-- A loader whose result nobody can receive any more stops. -/
def post (cache : SharedCache) (loader : Nat) : SharedCache :=
  match cache.loaders[loader]? with
  | some (.finished result) =>
    match cache.inbox.post result with
    | none => cache.dropLoader loader
    | some inbox => { cache with inbox }.setPhase loader .notifying
  | _ => cache

def notified (cache : SharedCache) (loader : Nat) : SharedCache :=
  match cache.loaders[loader]? with
  | some .notifying => cache.setPhase loader .looking
  | _ => cache

/-- A loader breaks down: over the copy of a generator, when the job was taken already, in the
out-of-memory handler, or in the notifier. -/
def crash (cache : SharedCache) (loader : Nat) : SharedCache :=
  match cache.loaders[loader]? with
  | some .looking =>
    if cache.state.shuttingDown then cache
    else
      match cache.state.nextJob with
      | (some (.load job), state) =>
        { cache with state, dequeued := cache.dequeued ++ [job.id] }.setPhase loader .dying
      | _ => cache
  | some (.holding (.load _)) => cache.setPhase loader .dying
  | some .notifying => cache.setPhase loader .dying
  | _ => cache

def handBack (cache : SharedCache) (loader : Nat) : SharedCache :=
  match cache.loaders[loader]? with
  | some .dying => { cache with state := cache.state.loaderLost }.dropLoader loader
  | _ => cache

/-- A thread receives a result once it has applied the one before. -/
def receive (cache : SharedCache) (thread : Nat) : SharedCache :=
  match cache.received.find? fun receipt => receipt.thread = thread, cache.inbox.results with
  | none, result :: results =>
    { cache with
      inbox := { cache.inbox with results }
      received := cache.received ++ [⟨thread, result⟩]
      drainers := cache.drainers ++ [thread] }
  | _, _ => cache

/-- A result was applied, and led to a state. -/
def settle (cache : SharedCache) (received : List Receipt) (result : LoadResult)
    (state : CacheState) : SharedCache :=
  { cache with state, received, applied := cache.applied ++ [result] }

def apply (cache : SharedCache) (thread : Nat) : SharedCache :=
  match cache.received.find? fun receipt => receipt.thread = thread with
  | none => cache
  | some receipt =>
    let received := cache.received.eraseP fun receipt => receipt.thread = thread
    cache.settle received receipt.result (cache.state.complete receipt.result).2

def close (cache : SharedCache) : SharedCache :=
  if cache.state.shuttingDown then { cache with inbox := cache.inbox.close.2 } else cache

def perform (cache : SharedCache) : Move → SharedCache
  | .request key generator subscriber => cache.request key generator subscriber
  | .peek key => cache.underLock (.peek key)
  | .recreate key => cache.underLock (.forgetFinished key)
  | .changeDirectory directory => cache.underLock (.changeDirectory directory)
  | .start => cache.start
  | .startFails => cache.startFails
  | .notify => cache.notify
  | .look loader => cache.look loader
  | .rouse loader => cache.rouse loader
  | .load loader outcome => cache.load loader outcome
  | .post loader => cache.post loader
  | .notified loader => cache.notified loader
  | .crash loader => cache.crash loader
  | .handBack loader => cache.handBack loader
  | .receive thread => cache.receive thread
  | .apply thread => cache.apply thread
  | .shutDown => cache.underLock .shutDown
  | .close => cache.close

def after (cache : SharedCache) (moves : List Move) : SharedCache :=
  moves.foldl perform cache

theorem after_concat (cache : SharedCache) (moves : List Move) (move : Move) :
    cache.after (moves ++ [move]) = (cache.after moves).perform move := by
  simp [after]

/-- What a thread applies is all that it has received, and it leaves the rest as it was. -/
theorem received_split {cache : SharedCache} {thread : Nat} {receipt : Receipt}
    (found : (cache.received.find? fun receipt => receipt.thread = thread) = some receipt) :
    ∃ front back, cache.received = front ++ receipt :: back ∧
      (∀ other ∈ front, other.thread ≠ receipt.thread) ∧
      (cache.received.eraseP fun receipt => receipt.thread = thread) = front ++ back := by
  rcases List.find?_eq_some_iff_append.mp found with ⟨own, front, back, receivedEq, others⟩
  have ownThread : receipt.thread = thread := by simpa using own
  have otherThreads : ∀ other ∈ front, other.thread ≠ thread := by simpa using others
  refine ⟨front, back, receivedEq, ?_, ?_⟩
  · rwa [ownThread]
  · rw [receivedEq, List.eraseP_append_right _ (by simpa using otherThreads)]
    simp [ownThread]

end SharedCache

end Thumbnails
