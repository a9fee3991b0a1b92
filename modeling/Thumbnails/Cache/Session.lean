import Thumbnails.Cache.Dispatch
import Thumbnails.Cache.Loader
import Thumbnails.Files.Edit

/-!
# Sessions

A session is a cache with all that surrounds it: the files, the loader, the inbox between the loader
and the owner, and the handlers. It is driven by commands. The loader works while no command is
being carried out, until nothing is queued, or a decoder holds it back, or it dies.

A handler that is called carries out commands of its own before the next result is taken out of the
inbox.
-/

namespace Thumbnails

inductive Loader where
  | absent
  | waiting
  /-- A decoder holds it back in the middle of a job. -/
  | held (job : LoadJob)

inductive Command where
  /-- Asks for a thumbnail. Without a name, the subscriber is a handler that is gone already. -/
  | request (key : ThumbnailKey) (generator : Generator) (handler : Option String)
  | peek (key : ThumbnailKey)
  | ensure (key : ThumbnailKey) (source : Image) (generator : Generator)
  | recreate (key : ThumbnailKey) (source : Image) (generator : Generator)
  | setDirectory (directory : Path)
  | directory
  | process
  | wait
  | release
  | dropHandler (handler : String)
  | shutDown
  | describe
  | edit (path : Path) (edit : FileEdit)
  | editThumbnail (key : ThumbnailKey) (directory : Path) (edit : FileEdit)
  | nothing

inductive Reply where
  | status (status : RequestStatus)
  | flag (value : Bool)
  | count (value : Nat)
  | path (path : Path)
  | text (text : String)
  | nothing
  | edited (result : Except IoError Unit)

/-- The surroundings of a cache that stay the same. -/
structure Setup where
  decoder : Decoder
  /-- The pages at which the decoder holds the loader back. -/
  holds : PageId → Bool
  recordsDecodes : Bool
  reportsMemory : Bool
  hasNotifier : Bool
  /-- The posts, counted from one, at which the notifier breaks down and takes the loader along. -/
  notifierCrashes : List Nat
  script : String → List Command

structure Event where
  delivery : Delivery
  nested : List Reply

structure Journal where
  events : List Event
  decoded : List PageId
  memoryReports : List String

structure Session where
  state : CacheState
  inbox : Inbox
  loader : Loader
  files : FileSystem
  handlers : Handlers
  posted : Nat
  journal : Journal

def Journal.empty : Journal :=
  ⟨[], [], []⟩

def Loader.isHeld : Loader → Bool
  | held _ => true
  | _ => false

namespace Session

variable {m : Type → Type} [Monad m] [ImageLibrary]

/-- Opens a cache with valid settings. Its directory is made if the one above it exists. -/
def start (config : Config) (files : FileSystem) : Except ConfigFault Session := do
  let config ← config.validate
  let directory := config.cacheDirectory.normalize
  return {
    state := CacheState.new config directory
    inbox := Inbox.empty
    loader := .absent
    files := (files.ensureDirectory directory).2
    handlers := Handlers.empty
    posted := 0
    journal := Journal.empty }

/-- Posts a result and calls the notifier. One that breaks down takes the loader along, and the
start of a loader is handed back. -/
def post (setup : Setup) (session : Session) (result : LoadResult) : Session :=
  let posted := session.posted + 1
  let sent := { session with
    inbox := (session.inbox.post result).getD session.inbox
    loader := .waiting
    posted }
  if setup.hasNotifier && setup.notifierCrashes.contains posted then
    { sent with loader := .absent, state := sent.state.loaderLost }
  else sent

def conclude (setup : Setup) (session : Session) (job : LoadJob) (outcome : Outcome Image)
    (files : FileSystem) : Session :=
  let reports := if setup.reportsMemory then (job.memoryReport? outcome).toList else []
  let journal := { session.journal with
    memoryReports := session.journal.memoryReports ++ reports }
  { session with files, journal }.post setup (job.result outcome)

def resume (setup : Setup) (session : Session) (job : LoadJob) : Session :=
  let decoded := setup.decoder.decode session.files job.key.image
  let (outcome, files) := job.make decoded session.files
  session.conclude setup job outcome files

/-- Starts a job. Unless the thumbnail on disk decides it, the page is handed to the decoder. -/
def load (setup : Setup) (session : Session) (job : LoadJob) : Session :=
  match job.reuse? session.files with
  | some outcome => session.conclude setup job outcome session.files
  | none =>
    let decoded := if setup.recordsDecodes then [job.key.image] else []
    let journal := { session.journal with decoded := session.journal.decoded ++ decoded }
    let handed := { session with journal }
    if setup.holds job.key.image then { handed with loader := .held job }
    else handed.resume setup job

/-- One step of a loader that waits: it stops once the cache shuts down, and otherwise takes a
record from the queue. Nothing is given if it goes on waiting. -/
def loaderStep? (setup : Setup) (session : Session) : Option Session :=
  match session.loader with
  | .absent => none
  | .held _ => none
  | .waiting =>
    if session.state.shuttingDown then some { session with loader := .absent }
    else
      match session.state.nextJob with
      | (none, _) => none
      | (some (.expired id), state) => some ({ session with state }.post setup (.expiry id))
      | (some (.load job), state) => some ({ session with state }.load setup job)

def runLoaderFor (setup : Setup) : Nat → Session → Session
  | 0, session => session
  | fuel + 1, session =>
    match session.loaderStep? setup with
    | none => session
    | some next => runLoaderFor setup fuel next

/-- Lets the loader work. Every step takes a record from the queue, and one more may stop it. -/
def runLoader (setup : Setup) (session : Session) : Session :=
  session.runLoaderFor setup (session.state.store.queuedCount + 1)

/-- Asks for a thumbnail, and starts a loader if that was taken on. A loader that waits takes up
its work without being told. -/
def request (session : Session) (key : ThumbnailKey) (generator : Generator)
    (handler : Option String) : RequestStatus × Session :=
  let (subscriber, handlers) :=
    match handler with
    | some name => session.handlers.subscribe name
    | none => session.handlers.subscribeGone
  let (status, wake, state) := session.state.request key generator subscriber
  let loader := if wake = .start then .waiting else session.loader
  (status, { session with state, handlers, loader })

/-- Where the thumbnail of a key belongs, unless the source is empty or the cache shuts down. -/
def target? (session : Session) (key : ThumbnailKey) (source : Image) : Option Path :=
  if source.isEmpty || session.state.shuttingDown then none
  else some (key.thumbnailPath session.state.directory)

/-- Makes a thumbnail with a generator that may do more than give a value, and saves it. -/
def writeThumbnailWith (session : Session) (path : Path) (source : Image)
    (generate : Image → Size → m (Outcome Image)) : m (Bool × Session) := do
  match ← generate source session.state.maxSize with
  | .failed _ => pure (false, session)
  -- A generator that breaks down takes its caller with it, and nobody gets to see this answer.
  | .crashed => pure (false, session)
  | .done thumbnail =>
    let (result, files) := session.files.saveThumbnail path thumbnail
    pure (result.toBool, { session with files })

def writeThumbnail (session : Session) (path : Path) (source : Image) (generator : Generator) :
    Bool × Session :=
  Id.run (session.writeThumbnailWith path source fun source box => generator.generate source box)

/-- Makes sure that something lies at the place of a key's thumbnail. -/
def ensureWith (session : Session) (key : ThumbnailKey) (source : Image)
    (generate : Image → Size → m (Outcome Image)) : m (Bool × Session) :=
  match session.target? key source with
  | none => pure (false, session)
  | some path =>
    if session.files.existsAt path then pure (true, session)
    else session.writeThumbnailWith path source generate

def ensure (session : Session) (key : ThumbnailKey) (source : Image) (generator : Generator) :
    Bool × Session :=
  Id.run (session.ensureWith key source fun source box => generator.generate source box)

/-- Writes the thumbnail of a key anew. A record whose load has come to its end is forgotten, so
the next request finds the new file. -/
def recreate (session : Session) (key : ThumbnailKey) (source : Image) (generator : Generator) :
    Bool × Session :=
  match session.target? key source with
  | none => (false, session)
  | some path =>
    match session.writeThumbnail path source generator with
    | (false, failed) => (false, failed)
    | (true, written) => (true, { written with state := (written.state.forgetFinished key).2 })

theorem writeThumbnail_eq (session : Session) (path : Path) (source : Image)
    (generator : Generator) :
    session.writeThumbnail path source generator =
      match generator.generate source session.state.maxSize with
      | .done thumbnail =>
        let (result, files) := session.files.saveThumbnail path thumbnail
        (result.toBool, { session with files })
      | _ => (false, session) := by
  simp only [writeThumbnail, writeThumbnailWith, Id.run, bind]
  cases generator.generate source session.state.maxSize <;> rfl

/-- Only files may change when a thumbnail is made. -/
theorem exists_files_writeThumbnail (session : Session) (path : Path) (source : Image)
    (generator : Generator) :
    ∃ files, (session.writeThumbnail path source generator).2 = { session with files } := by
  rw [writeThumbnail_eq]
  split
  · exact ⟨_, rfl⟩
  · exact ⟨session.files, rfl⟩

theorem ensure_eq (session : Session) (key : ThumbnailKey) (source : Image)
    (generator : Generator) :
    session.ensure key source generator =
      match session.target? key source with
      | none => (false, session)
      | some path =>
        if session.files.existsAt path then (true, session)
        else session.writeThumbnail path source generator := by
  simp only [ensure, ensureWith]
  cases session.target? key source with
  | none => rfl
  | some path =>
    simp only
    split <;> rfl

def setDirectory (session : Session) (directory : Path) : Session :=
  let normal := directory.normalize
  match session.state.changeDirectory normal with
  | (false, state) => { session with state }
  | (true, state) => { session with state, files := (session.files.ensureDirectory normal).2 }

/-- Shuts the cache down. A job that is held goes on to its end, and then the loader stops. -/
def shutDown (setup : Setup) (session : Session) : Session :=
  let closing := { session with state := session.state.shutDown }
  let finished :=
    match closing.loader with
    | .held job => closing.resume setup job
    | _ => closing
  { finished with loader := .absent }

def describe (setup : Setup) (session : Session) : String :=
  let stats := session.state.stats
  "ThumbnailPixmapCache \x7b cache_dir: " ++ Quoted.ofBytes session.state.directory.bytes ++
    ", stats: CacheStats \x7b records: " ++ toString stats.records ++ ", queued: " ++
    toString stats.queued ++ ", loaded: " ++ toString stats.loaded ++ ", load_attempts: " ++
    toString stats.loadAttempts ++ " \x7d, has_notifier: " ++ toString setup.hasNotifier ++
    " \x7d"

def applyEdit (session : Session) (path : Path) (edit : FileEdit) : Reply × Session :=
  let (result, files) := edit.apply session.files path
  (.edited result, { session with files })

def performAll (perform : Session → Command → Reply × Session) :
    List Command → Session → List Reply × Session
  | [], session => ([], session)
  | command :: commands, session =>
    let (reply, next) := perform session command
    let (replies, final) := performAll perform commands next
    (reply :: replies, final)

/-- Tells subscribers one after the other. Those that are gone by then are skipped. -/
def tell (setup : Setup) (perform : Session → Command → Reply × Session) (notice : Notice) :
    List SubscriberId → Session → Session
  | [], session => session
  | id :: subscribers, session =>
    match session.handlers.nameOf? id with
    | none => tell setup perform notice subscribers session
    | some name =>
      let entered := { session with handlers := session.handlers.enter name id }
      let (nested, called) := performAll perform (setup.script name) entered
      let journal := { called.journal with
        events := called.journal.events ++ [⟨⟨name, notice⟩, nested⟩] }
      tell setup perform notice subscribers
        { called with journal, handlers := called.handlers.leave }

def dispatch? (setup : Setup) (perform : Session → Command → Reply × Session)
    (session : Session) : Option Session :=
  match session.inbox.results with
  | [] => none
  | result :: results =>
    let (completion, state) := session.state.complete result
    let applied := { session with state, inbox := { session.inbox with results } }
    match completion with
    | none => some applied
    | some completion => some (tell setup perform completion.notice completion.subscribers applied)

/-- How many results there are to be taken out of the inbox by the time a command is carried out:
those that were posted, and that of a job which handlers may let go on. -/
def outstanding (session : Session) : Nat :=
  session.inbox.results.length + if session.loader.isHeld then 1 else 0

def drain (setup : Setup) (perform : Session → Command → Reply × Session) :
    Nat → Session → Nat × Session
  | 0, session => (0, session)
  | rounds + 1, session =>
    match dispatch? setup perform session with
    | none => (0, session)
    | some next =>
      let (count, final) := drain setup perform rounds next
      (count + 1, final)

/-- Carries out a command. The number bounds how deep handlers may call handlers, and every call
takes a result out of the inbox. -/
def perform (setup : Setup) : Nat → Session → Command → Reply × Session
  | 0, session, _ => (.nothing, session)
  | depth + 1, session, command =>
    match command with
    | .request key generator handler =>
      let (status, next) := session.request key generator handler
      (.status status, next)
    | .peek key =>
      let (status, state) := session.state.peek key
      (.status status, { session with state })
    | .ensure key source generator =>
      let (done, next) := session.ensure key source generator
      (.flag done, next)
    | .recreate key source generator =>
      let (done, next) := session.recreate key source generator
      (.flag done, next)
    | .setDirectory directory =>
      let next := session.setDirectory directory
      (.path next.state.directory, next)
    | .directory => (.path session.state.directory, session)
    | .process =>
      let (count, next) :=
        drain setup (perform setup depth) session.outstanding session
      (.count count, next)
    | .wait =>
      match dispatch? setup (perform setup depth) session with
      | some next => (.flag true, next)
      | none => (.flag false, session)
    | .release =>
      match session.loader with
      | .held job => (.flag true, session.resume setup job)
      | _ => (.flag false, session)
    | .dropHandler handler =>
      let (dropped, handlers) := session.handlers.drop handler
      (.flag dropped, { session with handlers })
    | .shutDown => (.nothing, session.shutDown setup)
    | .describe => (.text (session.describe setup), session)
    | .edit path edit => session.applyEdit path edit
    | .editThumbnail key directory edit =>
      session.applyEdit (key.thumbnailPath directory) edit
    | .nothing => (.nothing, session)

/-- Carries out a command and then lets the loader work. The journal afterwards says what happened
meanwhile. -/
def step (setup : Setup) (session : Session) (command : Command) : Reply × Session :=
  let fresh := { session with journal := Journal.empty }
  let (reply, next) := fresh.perform setup (session.outstanding + 1) command
  (reply, next.runLoader setup)

end Session

end Thumbnails
