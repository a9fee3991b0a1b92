import Thumbnails.Proofs.Cache.Lifecycle
import Thumbnails.Proofs.Cache.Turns
import Thumbnails.Proofs.Files.Retention
import Thumbnails.Proofs.Image.Plain

/-!
# Disk backs memory

A thumbnail that lies on disk outlasts its record. The loader finds it there whenever it is asked
for again, and delivers it without decoding anything, as long as nobody replaces the file
(`Session.servesFromDisk_after`).

That the cache itself does not replace the file has a reason for each of its ways to write one.
Thumbnails with other names lie elsewhere, in all directories. For the same key, the loader writes
only where it found nothing to load, and `Session.ensure` only where it found nothing at all. The
directory may be another one then, but not one in which the path of the key leads to the file.
-/

namespace Thumbnails

/-- The keys of all records. -/
def Store.keys (store : Store) : List ThumbnailKey :=
  store.loadOrder.filterMap fun id => (store.get? id).map Record.key

namespace CacheState

variable {state next : CacheState} {kind : ThumbnailKey → Prop} {key : ThumbnailKey}
  {view : StoreView}

/-- A state between two calls, all of whose records are for keys of a kind. -/
def HoldsKeys (kind : ThumbnailKey → Prop) (state : CacheState) : Prop :=
  ∃ view, state.Tidy view ∧ ∀ id record, view.records id = some record → kind record.key

theorem holdsKeys_of_tidy (tidy : state.Tidy view) (keys : ∀ key ∈ state.store.keys, kind key) :
    state.HoldsKeys kind := by
  refine ⟨view, tidy, ?_⟩
  intro id record present
  apply keys
  rw [Store.keys, tidy.represents.loadOrder_eq]
  refine List.mem_filterMap.mpr ⟨id, tidy.wellFormed.load_mem present, ?_⟩
  rw [tidy.represents.records, present, Option.map_some]

/-- Only requests bring new keys. -/
theorem HoldsKeys.perform (holds : state.HoldsKeys kind) (call : CacheCall)
    (asked : ∀ key generator subscriber, call = .request key generator subscriber → kind key) :
    (state.perform call).2.HoldsKeys kind := by
  rcases holds with ⟨view, tidy, keys⟩
  rcases tidy.perform call with ⟨next, effect, nextTidy⟩
  refine ⟨next, nextTidy, ?_⟩
  intro id record present
  have change := effect.change tidy.wellFormed tidy.orderly id
  cases earlier : view.records id with
  | some old =>
    rw [change.key_eq earlier present]
    exact keys id old earlier
  | none =>
    rw [earlier, present] at change
    generalize answerEq : (state.perform call).1 = answer at change
    cases change with
    | created => exact asked _ _ _ rfl

theorem HoldsKeys.kind_of_job (holds : state.HoldsKeys kind) {job : LoadJob}
    (nextJobEq : state.nextJob = (some (.load job), next)) : kind job.key := by
  rcases holds with ⟨view, tidy, keys⟩
  rcases tidy.effect_nextJob nextJobEq with ⟨_, effect, _⟩
  cases effect with
  | jobStarted first present => exact keys _ _ present

/-- What was loaded for a record in progress is told to its subscribers. -/
theorem Tidy.tells_loaded (tidy : state.Tidy view) (running : state.shuttingDown = false)
    {id : RecordId} {record : Record} (present : view.records id = some record)
    (inProgress : record.status = .inProgress) (image : Image) :
    (state.complete (.ofImage id image)).1 = some ⟨record.subscribers, ⟨.loaded, some image⟩⟩ := by
  rcases tidy.complete (.ofImage id image) with ⟨next, effect, _⟩
  simp only [CacheState.perform, LoadResult.ofImage] at effect ⊢
  generalize state.complete ⟨id, .loaded, some image⟩ = answer at effect ⊢
  rcases answer with ⟨completion, after⟩
  cases effect with
  | resultDropped dropped =>
    rcases dropped with closing | settled
    · cases running.symm.trans closing
    · exact absurd (by simp [StoreView.statusOf?, present, inProgress]) settled
  | resultLanded _ otherPresent =>
    cases present.symm.trans otherPresent
    rfl
  | resultFailed _ _ _ failed => simp at failed

/-- The record at the front of the load order is loaded next, unless it is stale, and its
subscribers are told. -/
theorem Tidy.delivers_first (tidy : state.Tidy view) (running : state.shuttingDown = false)
    {id : RecordId} {rest : List RecordId} {record : Record} (first : view.load = id :: rest)
    (present : view.records id = some record) (queued : record.status = .queued)
    (timely : state.clock - record.createdAt ≤ state.threshold) (image : Image) :
    ∃ job taken, state.nextJob = (some (.load job), taken) ∧ job.key = record.key ∧
      job.directory = state.directory ∧
      (taken.complete (.ofImage job.id image)).1 =
        some ⟨record.subscribers, ⟨.loaded, some image⟩⟩ := by
  rcases nextJobEq : state.nextJob with ⟨dequeued, taken⟩
  rcases tidy.effect_nextJob nextJobEq with ⟨next, effect, takenTidy⟩
  cases effect with
  | nothingQueued idle => exact absurd (by simp [StoreView.statusOf?, present, queued]) (idle id)
  | jobExpired otherFirst otherPresent _ stale =>
    cases first.symm.trans otherFirst
    cases present.symm.trans otherPresent
    omega
  | jobStarted otherFirst otherPresent =>
    cases first.symm.trans otherFirst
    cases present.symm.trans otherPresent
    have inProgress := (view.records_take id id record).trans (if_pos rfl)
    exact ⟨_, _, rfl, rfl, rfl, takenTidy.tells_loaded running inProgress rfl image⟩

/-- A key that is not in memory is queued by a request and loaded next, and what was loaded for it
is told to the subscriber. -/
theorem Tidy.redelivers (tidy : state.Tidy view) (running : state.shuttingDown = false)
    (absent : state.store.find? key = none) (generator : Generator) (subscriber : SubscriberId)
    (image : Image) :
    ∃ wake queued job taken, state.request key generator subscriber = (.queued, wake, queued) ∧
      queued.nextJob = (some (.load job), taken) ∧ job.key = key ∧
      job.directory = state.directory ∧
      (taken.complete (.ofImage job.id image)).1 =
        some ⟨[subscriber], ⟨.loaded, some image⟩⟩ := by
  rw [tidy.represents.names] at absent
  rcases requestEq : state.request key generator subscriber with ⟨status, wake, queued⟩
  rcases tidy.effect_request requestEq with ⟨queuedView, requested, queuedTidy⟩
  cases requested with
  | requestRefused closing => cases running.symm.trans closing
  | requestAnswered _ answers =>
    cases answers with
    | hit named => cases absent.symm.trans named
    | failed named => cases absent.symm.trans named
  | requestJoined _ named => cases absent.symm.trans named
  | requestCreated =>
    rename_i id _ _ _ _
    have present := (view.records_insert id id
      (.created key generator state.clock subscriber)).trans (if_pos rfl)
    rcases queuedTidy.delivers_first running rfl present rfl
      (by simp [Record.created, Record.queued]) image with ⟨job, taken, nextJobEq, found⟩
    exact ⟨_, _, job, taken, rfl, nextJobEq, found⟩

end CacheState

/-- A key that does not share its path in a directory with another one. -/
def ThumbnailKey.Spares (key kept : ThumbnailKey) (directory : Path) : Prop :=
  key = kept ∨ key.thumbnailPath directory ≠ kept.thumbnailPath directory

instance (key kept : ThumbnailKey) (directory : Path) : Decidable (key.Spares kept directory) :=
  inferInstanceAs (Decidable (_ ∨ _))

/-- A command that leaves the thumbnail of a key in a directory to the cache. It does not make it
anew, does not bring another key with the same path, and does not edit the file. -/
def Command.Spares (kept : ThumbnailKey) (directory : Path) (working : Location) : Command → Prop
  | .request key _ _ => key.Spares kept directory
  | .recreate key _ _ => key.thumbnailPath directory ≠ kept.thumbnailPath directory
  | .edit path change => change.Spares path (kept.thumbnailPath directory) working
  | .editThumbnail key other change =>
    change.Spares (key.thumbnailPath other) (kept.thumbnailPath directory) working
  | _ => True

/-- Keys with different paths in one directory have them apart in all directories. -/
theorem FileSystem.leadsApart_of_thumbnailPath_ne {key other : ThumbnailKey} {directory : Path}
    (different : other.thumbnailPath directory ≠ key.thumbnailPath directory) (files : FileSystem)
    (elsewhere : Path) :
    files.LeadsApart (other.thumbnailPath elsewhere) (key.thumbnailPath directory) := by
  apply leadsApart_of_fileName_ne
  intro same
  exact different (by rw [ThumbnailKey.thumbnailPath, ThumbnailKey.thumbnailPath, same])

section Backing

variable [ImageLibrary]

/-- An image lies on disk for a key in a directory. Either it can be loaded from there, or a load
made it and has just saved it. -/
inductive FileSystem.Backs (files : FileSystem) (key : ThumbnailKey) (directory : Path)
    (image : Image) : Prop where
  | found (loads : files.loadThumbnail (key.thumbnailPath directory) = .ok image)
  | saved {job : LoadJob} {decoded : Outcome Image} {before : FileSystem} (keyEq : job.key = key)
      (directoryEq : job.directory = directory) (survives : image.Survives)
      (made : job.make decoded before = (.done image, files))
      (saves : (before.saveThumbnail job.thumbnailPath image).1 = .ok ())

variable {setup : Setup} {session next : Session} {key other : ThumbnailKey} {directory : Path}
  {working : Location} {image : Image} {files : FileSystem} {job : LoadJob}

namespace FileSystem

theorem Backs.loads (backs : files.Backs key directory image) :
    files.loadThumbnail (key.thumbnailPath directory) = .ok image := by
  cases backs with
  | found loads => exact loads
  | saved keyEq directoryEq survives made saves =>
    rename_i job decoded before
    subst keyEq directoryEq
    rw [LoadJob.make_eq] at made
    split at made
    · cases made
      exact loadThumbnail_saveThumbnail survives (Prod.ext saves rfl)
    · cases made
    · cases made

end FileSystem

namespace Session

/-- The thumbnail of a key lies in a directory, and nothing is under way that could replace it. -/
structure Backed (key : ThumbnailKey) (directory : Path) (working : Location) (image : Image)
    (session : Session) : Prop where
  workingDirectory : session.files.workingDirectory = working
  loads : session.files.loadThumbnail (key.thumbnailPath directory) = .ok image
  keys : session.state.HoldsKeys (·.Spares key directory)
  apart : ∀ job, session.loader = .held job →
    job.key.thumbnailPath directory ≠ key.thumbnailPath directory

namespace Backed

variable (backed : session.Backed key directory working image)
include backed

theorem congr (state : next.state = session.state) (files : next.files = session.files)
    (loader : next.loader = session.loader) : next.Backed key directory working image := by
  refine ⟨?_, ?_, ?_, ?_⟩
  · rw [files]
    exact backed.workingDirectory
  · rw [files]
    exact backed.loads
  · rw [state]
    exact backed.keys
  · rw [loader]
    exact backed.apart

theorem retain (retains : files.Retains session.files (key.thumbnailPath directory)) :
    { session with files }.Backed key directory working image :=
  ⟨retains.workingDirectory.trans backed.workingDirectory, retains.loadThumbnail backed.loads,
    backed.keys, backed.apart⟩

theorem ask (spares : other.Spares key directory) (generator : Generator)
    (subscriber : SubscriberId) :
    Session.Backed key directory working image { session with
      state := (session.state.perform (.request other generator subscriber)).2 } := by
  refine ⟨backed.workingDirectory, backed.loads, backed.keys.perform _ ?_, backed.apart⟩
  intro asked _ _ callEq
  cases callEq
  exact spares

/-- Only requests need to be looked at. -/
theorem underLock (call : CacheCall)
    (unasked : ∀ other generator subscriber, call ≠ .request other generator subscriber) :
    { session with state := (session.state.perform call).2 }.Backed key directory working
      image := by
  refine ⟨backed.workingDirectory, backed.loads, backed.keys.perform call ?_, backed.apart⟩
  intro asked generator subscriber callEq
  exact absurd callEq (unasked asked generator subscriber)

theorem hold (different : job.key.thumbnailPath directory ≠ key.thumbnailPath directory) :
    { session with loader := .held job }.Backed key directory working image := by
  refine ⟨backed.workingDirectory, backed.loads, backed.keys, ?_⟩
  intro other held
  cases held
  exact different

theorem setFree {loader : Loader} (free : loader.isHeld = false) :
    { session with loader }.Backed key directory working image := by
  refine ⟨backed.workingDirectory, backed.loads, backed.keys, ?_⟩
  intro job held
  simp only at held
  rw [held] at free
  cases free

theorem post (result : LoadResult) :
    (session.post setup result).Backed key directory working image := by
  have sent : Session.Backed key directory working image { session with
      inbox := (session.inbox.post result).getD session.inbox
      loader := .waiting
      posted := session.posted + 1 } :=
    (backed.setFree rfl).congr rfl rfl rfl
  simp only [Session.post]
  split
  · exact (sent.underLock .loaderLost (by simp)).setFree rfl
  · exact sent

theorem conclude (job : LoadJob) (outcome : Outcome Image)
    (retains : files.Retains session.files (key.thumbnailPath directory)) :
    (session.conclude setup job outcome files).Backed key directory working image := by
  apply post
  exact (backed.retain retains).congr rfl rfl rfl

theorem resume (apart : session.files.LeadsApart job.thumbnailPath (key.thumbnailPath directory)) :
    (session.resume setup job).Backed key directory working image :=
  backed.conclude job _ (LoadJob.retains_make apart _)

theorem resume_held (held : session.loader = .held job) :
    (session.resume setup job).Backed key directory working image :=
  backed.resume (FileSystem.leadsApart_of_thumbnailPath_ne (backed.apart job held) _ _)

/-- A job for the key itself is not held, and if it has to make a thumbnail then that belongs
elsewhere. -/
theorem load (unheld : setup.holds key.image = false) (spares : job.key.Spares key directory) :
    (session.load setup job).Backed key directory working image := by
  unfold Session.load
  cases unused : job.reuse? session.files with
  | some outcome => exact backed.conclude job outcome (.refl _ _)
  | none =>
    simp only
    by_cases holds : setup.holds job.key.image = true
    · rw [if_pos holds]
      rcases spares with same | different
      · rw [same, unheld] at holds
        cases holds
      · exact (backed.hold different).congr rfl rfl rfl
    · rw [if_neg holds]
      apply resume
      · exact backed.congr rfl rfl rfl
      · exact LoadJob.leadsApart_of_unused unused backed.loads

theorem loaderStep (unheld : setup.holds key.image = false)
    (progress : session.loaderStep? setup = some next) :
    next.Backed key directory working image := by
  simp only [Session.loaderStep?] at progress
  split at progress
  · cases progress
  · cases progress
  · split at progress
    · cases progress
      exact backed.setFree rfl
    · have taken := backed.underLock .nextJob (by simp)
      simp only [CacheState.perform] at taken
      split at progress
      · cases progress
      · rename_i id state nextJobEq
        cases progress
        rw [nextJobEq] at taken
        exact taken.post _
      · rename_i job state nextJobEq
        cases progress
        have spares := backed.keys.kind_of_job nextJobEq
        rw [nextJobEq] at taken
        exact taken.load unheld spares

theorem requested {subscriber : SubscriberId} {generator : Generator} {status : RequestStatus}
    {wake : Wake} {state : CacheState} (spares : other.Spares key directory)
    (requestEq : session.state.request other generator subscriber = (status, wake, state))
    (handlers : Handlers) :
    Session.Backed key directory working image { session with
      state
      handlers
      loader := if wake = .start then .waiting else session.loader } := by
  have asked := backed.ask spares generator subscriber
  simp only [CacheState.perform, requestEq] at asked
  split
  · exact (asked.setFree rfl).congr rfl rfl rfl
  · exact asked.congr rfl rfl rfl

theorem request (spares : other.Spares key directory) (generator : Generator)
    (handler : Option String) :
    (session.request other generator handler).2.Backed key directory working image :=
  backed.requested spares rfl _

theorem writeThumbnail {path : Path} (source : Image) (generator : Generator)
    (apart : session.files.LeadsApart path (key.thumbnailPath directory)) :
    (session.writeThumbnail path source generator).2.Backed key directory working image := by
  rw [writeThumbnail_eq]
  split
  · exact backed.retain (FileSystem.retains_saveThumbnail _ apart)
  · exact backed

/-- Nothing is written where something lies. -/
theorem ensure (other : ThumbnailKey) (source : Image) (generator : Generator) :
    (session.ensure other source generator).2.Backed key directory working image := by
  rw [ensure_eq]
  split
  · exact backed
  · rename_i path target
    split
    · exact backed
    · rename_i absent
      apply backed.writeThumbnail
      apply FileSystem.leadsApart_of_nodeAt?_ne
      rcases FileSystem.loadThumbnail_eq_ok_iff.mp backed.loads with ⟨data, present, _⟩
      intro same
      rw [FileSystem.existsAt_iff, same, present] at absent
      exact absent rfl

theorem recreate (different : other.thumbnailPath directory ≠ key.thumbnailPath directory)
    (source : Image) (generator : Generator) :
    (session.recreate other source generator).2.Backed key directory working image := by
  unfold Session.recreate
  split
  · exact backed
  · rename_i path target
    have pathEq : path = other.thumbnailPath session.state.directory := by
      simp only [Session.target?] at target
      split at target
      · cases target
      · exact (Option.some.inj target).symm
    have written := backed.writeThumbnail source generator
      (FileSystem.leadsApart_of_thumbnailPath_ne different session.files session.state.directory)
    rw [← pathEq] at written
    split <;> rename_i after writeEq <;> rw [writeEq] at written
    · exact written
    · exact written.underLock (.forgetFinished other) (by simp)

theorem setDirectory (other : Path) :
    (session.setDirectory other).Backed key directory working image := by
  have changed := backed.underLock (.changeDirectory other.normalize) (by simp)
  simp only [CacheState.perform] at changed
  simp only [Session.setDirectory]
  split <;> rename_i state changeEq <;> rw [changeEq] at changed
  · exact changed
  · exact changed.retain (FileSystem.retains_ensureDirectory _ _)

theorem shutDown : (session.shutDown setup).Backed key directory working image := by
  have closing : { session with state := session.state.shutDown }.Backed key directory working
      image := backed.underLock .shutDown (by simp)
  simp only [Session.shutDown]
  cases held : session.loader with
  | held job => exact (closing.resume_held held).setFree rfl
  | absent => exact closing.setFree rfl
  | waiting => exact closing.setFree rfl

theorem applyEdit {path : Path} {change : FileEdit}
    (spares : change.Spares path (key.thumbnailPath directory) working) :
    (session.applyEdit path change).2.Backed key directory working image :=
  backed.retain (spares session.files backed.workingDirectory)

/-- A command that takes nothing out of the inbox. -/
theorem perform {command : Command} (plain : command.delivers = false)
    (spares : command.Spares key directory working) (depth : Nat) :
    (session.perform setup (depth + 1) command).2.Backed key directory working image := by
  cases command with
  | request other generator handler => exact backed.request spares generator handler
  | peek other => exact backed.underLock (.peek other) (by simp)
  | ensure other source generator => exact backed.ensure other source generator
  | recreate other source generator => exact backed.recreate spares source generator
  | setDirectory other => exact backed.setDirectory other
  | release =>
    rw [Session.perform]
    split
    · rename_i job held
      exact backed.resume_held held
    · exact backed
  | dropHandler handler => exact backed.congr rfl rfl rfl
  | shutDown => exact backed.shutDown
  | edit path change => exact backed.applyEdit spares
  | editThumbnail other elsewhere change => exact backed.applyEdit spares
  | process => cases plain
  | wait => cases plain
  | directory => exact backed
  | describe => exact backed
  | nothing => exact backed

end Backed

theorem keeps_backed (unheld : setup.holds key.image = false)
    (scripts : ∀ name, ∀ command ∈ setup.script name, command.Spares key directory working) :
    Keeps setup (·.Spares key directory working) (Session.Backed key directory working image) where
  scripted := scripts
  inert backed := backed.congr
  completed _ result backed := backed.underLock (.complete result) (by simp)
  performed depth _ _ plain spares backed := backed.perform plain spares depth
  loaded _ _ progress backed := backed.loaderStep unheld progress

/-- What a session does about a thumbnail that lies on disk for a key in a directory. -/
structure ServesFromDisk (setup : Setup) (session : Session) (key : ThumbnailKey)
    (directory : Path) (image : Image) : Prop where
  /-- A job finds the image, whatever could be decoded and made instead, and changes no file. -/
  produced : ∀ (job : LoadJob) (decoder : Decoder), job.key = key → job.directory = directory →
    job.produce decoder session.files = (.done image, session.files)
  /-- The loader posts the image in the turn in which it takes the job, and decodes nothing. -/
  loaded : ∀ job state, session.loader = .waiting → session.state.shuttingDown = false →
    session.state.nextJob = (some (.load job), state) → job.key = key →
    job.directory = directory →
    session.loaderStep? setup = some (({ session with state }).post setup (.ofImage job.id image))
  /-- If the key is not in memory, then it is queued by a request, its job is the next one, and
  the subscriber is told the image. -/
  redelivered : ∀ generator subscriber (decoder : Decoder), session.state.shuttingDown = false →
    session.state.directory = directory → session.state.store.find? key = none →
    ∃ wake queued job taken,
      session.state.request key generator subscriber = (.queued, wake, queued) ∧
      queued.nextJob = (some (.load job), taken) ∧
      (taken.complete (job.result (job.produce decoder session.files).1)).1 =
        some ⟨[subscriber], ⟨.loaded, some image⟩⟩

/-- A job that the thumbnail on disk decides is posted at once. -/
theorem load_of_reuse (reuses : job.reuse? session.files = some (.done image)) :
    session.load setup job = session.post setup (.ofImage job.id image) := by
  simp only [load, reuses, conclude, LoadJob.memoryReport?, Option.toList_none, ite_self,
    List.append_nil]
  rfl

theorem Backed.servesFromDisk (backed : session.Backed key directory working image) :
    session.ServesFromDisk setup key directory image := by
  have reuses : ∀ job : LoadJob, job.key = key → job.directory = directory →
      job.reuse? session.files = some (.done image) := by
    rintro job rfl rfl
    have loads : session.files.loadThumbnail job.thumbnailPath = .ok image := backed.loads
    rw [LoadJob.reuse?, loads]
  have produced : ∀ (job : LoadJob) (decoder : Decoder), job.key = key →
      job.directory = directory →
      job.produce decoder session.files = (.done image, session.files) := by
    intro job decoder keyEq directoryEq
    rw [LoadJob.produce_eq, reuses job keyEq directoryEq]
  refine ⟨produced, ?_, ?_⟩
  · intro job state waiting running nextJobEq keyEq directoryEq
    simp only [loaderStep?, waiting, running, nextJobEq, Bool.false_eq_true, if_false]
    exact congrArg some (load_of_reuse (reuses job keyEq directoryEq))
  · intro generator subscriber decoder running directoryEq absent
    rcases backed.keys with ⟨view, tidy, _⟩
    rcases tidy.redelivers running absent generator subscriber image with
      ⟨wake, queued, job, taken, requestEq, nextJobEq, keyEq, jobDirectory, told⟩
    refine ⟨wake, queued, job, taken, requestEq, nextJobEq, ?_⟩
    rw [produced job decoder keyEq (jobDirectory.trans directoryEq)]
    exact told

/-- Once a thumbnail lies on disk for a key, every later job for it in that directory finds it
there, whatever a session does in between. The thumbnail is left to the cache, no other key in use
has its path, and the decoder does not hold the loader back over its page, so that each of its loads
is done in one turn. -/
theorem servesFromDisk_after {config : Config} {opened point : Session}
    (opens : start config files = .ok opened) (before later : List SessionTurn)
    (pointEq : opened.after setup before = point) (backs : point.files.Backs key directory image)
    (stored : ∀ other ∈ point.state.store.keys, other.Spares key directory)
    (apart : ∀ job, point.loader = .held job →
      job.key.thumbnailPath directory ≠ key.thumbnailPath directory)
    (unheld : setup.holds key.image = false)
    (commands : ∀ command, .command command ∈ later →
      command.Spares key directory point.files.workingDirectory)
    (scripts : ∀ name, ∀ command ∈ setup.script name,
      command.Spares key directory point.files.workingDirectory) :
    (point.after setup later).ServesFromDisk setup key directory image := by
  rcases tidy_after_turns opens before with ⟨view, tidy⟩
  rw [pointEq] at tidy
  have backed : point.Backed key directory point.files.workingDirectory image :=
    ⟨rfl, backs.loads, CacheState.holdsKeys_of_tidy tidy stored, apart⟩
  exact ((keeps_backed unheld scripts).after later commands point backed).servesFromDisk

end Session

end Backing

namespace Session

open CacheState (letterPage)

attribute [local instance] ImageLibrary.plain

def grayImage : Image :=
  ⟨⟨2, 2⟩, .l8, [10, 10, 10, 10]⟩

def paleImage : Image :=
  ⟨⟨3, 1⟩, .l8, [200, 200, 200]⟩

/-- The decoder always gets something, and handlers look at what is in memory. -/
def lookingSetup : Setup where
  decoder := ⟨fun _ _ => .done grayImage⟩
  holds _ := false
  recordsDecodes := true
  reportsMemory := false
  hasNotifier := false
  notifierCrashes := []
  script _ := [.peek (letterPage 0x61)]

/-- Settings with room for one thumbnail. -/
def narrowConfig : Config :=
  ⟨⟨[0x74]⟩, ⟨64, 64⟩, 1, 5, 0⟩

/-- A cache as it is opened on an empty disk. -/
def narrowSession : Session where
  state := CacheState.new narrowConfig ⟨[0x74]⟩
  inbox := Inbox.empty
  loader := .absent
  files := ((FileSystem.withWorkingDirectory [[0x77]]).ensureDirectory ⟨[0x74]⟩).2
  handlers := Handlers.empty
  posted := 0
  journal := Journal.empty

/-- A cache after a thumbnail was made and saved. -/
def savedSession : Session :=
  narrowSession.after lookingSetup
    [.command (.request (letterPage 0x61) (.constant (.done grayImage)) (some "view")), .loader]

/-- The thumbnail is evicted while the cache uses another directory. Then it is asked for again,
with a generator that breaks down. -/
def evictingTurns : List SessionTurn :=
  [.command .wait, .command (.edit ⟨[0x76]⟩ .createDirectory), .command (.setDirectory ⟨[0x76]⟩),
    .command (.request (letterPage 0x62) (.constant (.done paleImage)) (some "view")),
    .loader, .command .wait, .command (.setDirectory ⟨[0x74]⟩),
    .command (.request (letterPage 0x61) (.constant .crashed) (some "view")), .loader,
    .command .wait]

theorem servesFromDisk_evictingTurns :
    (savedSession.after lookingSetup evictingTurns).ServesFromDisk lookingSetup (letterPage 0x61)
        ⟨[0x74]⟩ grayImage ∧
      (savedSession.after lookingSetup evictingTurns).journal.events.map (·.delivery.notice) =
        [⟨.loaded, some grayImage⟩, ⟨.loaded, some paleImage⟩, ⟨.loaded, some grayImage⟩] ∧
      (savedSession.after lookingSetup evictingTurns).journal.decoded =
        [(letterPage 0x61).image, (letterPage 0x62).image] := by
  have opens : start narrowConfig (FileSystem.withWorkingDirectory [[0x77]]) =
      .ok narrowSession := rfl
  have loads : savedSession.files.loadThumbnail ((letterPage 0x61).thumbnailPath ⟨[0x74]⟩) =
      .ok grayImage :=
    FileSystem.loadThumbnail_eq_ok_iff.mpr
      ⟨(ImageLibrary.encode grayImage).toOption.getD [], by decide +kernel, rfl⟩
  have idle : savedSession.loader.isHeld = false := by decide +kernel
  refine ⟨servesFromDisk_after opens _ evictingTurns rfl (.found loads) (by decide +kernel) ?_ rfl
    ?_ ?_, by decide +kernel, by decide +kernel⟩
  · intro job held
    rw [held] at idle
    cases idle
  · intro command commandMem
    simp only [evictingTurns, List.mem_cons, SessionTurn.command.injEq, reduceCtorEq,
      List.not_mem_nil, or_false, false_or] at commandMem
    rcases commandMem with rfl | rfl | rfl | rfl | rfl | rfl | rfl | rfl
    · trivial
    · exact FileEdit.spares_createDirectory _ _ _
    · trivial
    · exact .inr (by decide +kernel)
    · trivial
    · trivial
    · exact .inl rfl
    · trivial
  · rintro name command commandMem
    obtain rfl := List.mem_singleton.mp commandMem
    trivial

end Session

end Thumbnails
