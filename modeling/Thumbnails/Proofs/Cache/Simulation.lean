import Thumbnails.Cache.Session
import Thumbnails.Proofs.Cache.InFlight

/-!
# Sessions are interleavings

A session carries out one command at a time and lets the loader work in between. Whatever it does to
its cache can be done by threads that share one: for every command there are moves that lead to the
same state, the same inbox, and a loader that is as far. So what holds after all moves of all
threads holds of sessions, with handlers that carry out commands of their own while they are called.

The moves are calm unless the notifier breaks down.
-/

namespace Thumbnails

/-- A session does not tell a loader that sleeps from one that is about to look for work. -/
inductive Loader.Shows : Loader → List LoaderPhase → Prop where
  | absent : Shows .absent []
  | looking : Shows .waiting [.looking]
  | asleep : Shows .waiting [.asleep]
  | held (job : LoadJob) : Shows (.held job) [.holding (.load job)]

theorem Loader.Shows.roused {loader : Loader} {phases : List LoaderPhase}
    (shows : loader.Shows phases) :
    loader.Shows (phases.map LoaderPhase.roused) := by
  cases shows with
  | absent => exact .absent
  | looking => exact .looking
  | asleep => exact .looking
  | held job => exact .held job

namespace Session

/-- A cache and its loader stand where a session has left them. -/
structure Stands (session : Session) (phases : List LoaderPhase) (cache : SharedCache) : Prop where
  state : cache.state = session.state
  inbox : cache.inbox = session.inbox
  loaders : cache.loaders = phases
  received : cache.received = []
  starts : cache.starts = 0
  unclosed : session.inbox.closed = false
  tidy : ∃ view, session.state.Tidy view
  started : session.state.shuttingDown = false → phases ≠ [] →
    session.state.loaderStarted = true

def ShownBy (session : Session) (cache : SharedCache) : Prop :=
  ∃ phases, session.loader.Shows phases ∧ session.Stands phases cache

/-- Moves lead from a cache to one that shows a session. -/
def Follows (setup : Setup) (cache : SharedCache) (session : Session) : Prop :=
  ∃ moves, (setup.notifierCrashes = [] → ∀ move ∈ moves, Move.isCalm move = true) ∧
    session.ShownBy (cache.after moves)

/-- Wherever one session is shown, moves lead to where the other one is shown. -/
def Reaches (setup : Setup) (session next : Session) : Prop :=
  ∀ cache, session.ShownBy cache → Follows setup cache next

variable {setup : Setup} {session middle next : Session} {cache : SharedCache}
  {phases : List LoaderPhase}

theorem follows_of_shown (shown : session.ShownBy cache) : Follows setup cache session :=
  ⟨[], fun _ => nofun, shown⟩

theorem Follows.after_move (move : Move) (calm : setup.notifierCrashes = [] → move.isCalm = true)
    (follows : Follows setup (cache.perform move) session) : Follows setup cache session := by
  rcases follows with ⟨moves, rest, shown⟩
  refine ⟨move :: moves, ?_, shown⟩
  intro quiet other otherMem
  rcases List.mem_cons.mp otherMem with rfl | later
  · exact calm quiet
  · exact rest quiet other later

theorem Reaches.refl (session : Session) : Reaches setup session session :=
  fun _ shown => follows_of_shown shown

theorem Reaches.trans (first : Reaches setup session middle) (second : Reaches setup middle next) :
    Reaches setup session next := by
  intro cache shown
  rcases first cache shown with ⟨front, frontCalm, middleShown⟩
  rcases second _ middleShown with ⟨back, backCalm, nextShown⟩
  refine ⟨front ++ back, ?_, ?_⟩
  · intro quiet move moveMem
    rcases List.mem_append.mp moveMem with inFront | inBack
    · exact frontCalm quiet move inFront
    · exact backCalm quiet move inBack
  · rw [SharedCache.after, List.foldl_append]
    exact nextShown

/-- Files, handlers and the journal are not shown. -/
theorem Stands.congr (stands : session.Stands phases cache) (state : next.state = session.state)
    (inbox : next.inbox = session.inbox) : next.Stands phases cache := by
  refine ⟨?_, ?_, stands.loaders, stands.received, stands.starts, ?_, ?_, ?_⟩
  · rw [state]
    exact stands.state
  · rw [inbox]
    exact stands.inbox
  · rw [inbox]
    exact stands.unclosed
  · rw [state]
    exact stands.tidy
  · rw [state]
    exact stands.started

theorem reaches_of_same (state : next.state = session.state) (inbox : next.inbox = session.inbox)
    (loader : next.loader = session.loader) : Reaches setup session next := by
  rintro cache ⟨phases, shows, stands⟩
  rw [← loader] at shows
  exact follows_of_shown ⟨phases, shows, stands.congr state inbox⟩

theorem Stands.effect (stands : session.Stands phases cache) {call : CacheCall}
    {answer : CacheAnswer} {state : CacheState}
    (performEq : session.state.perform call = (answer, state)) :
    ∃ view next, session.state.Effect view call answer state next ∧ state.Tidy next := by
  rcases stands.tidy with ⟨view, tidy⟩
  rcases tidy.perform call with ⟨next, effect, nextTidy⟩
  rw [performEq] at effect nextTidy
  exact ⟨view, next, effect, nextTidy⟩

theorem Stands.found {phase : LoaderPhase} (stands : session.Stands [phase] cache) :
    cache.loaders[0]? = some phase := by
  rw [stands.loaders]
  rfl

theorem Stands.setPhase {old : LoaderPhase} (stands : session.Stands [old] cache)
    (new : LoaderPhase) : session.Stands [new] (cache.setPhase 0 new) := by
  refine ⟨stands.state, stands.inbox, ?_, stands.received, stands.starts, stands.unclosed,
    stands.tidy, fun running _ => stands.started running (by simp)⟩
  rw [SharedCache.setPhase, stands.loaders]
  rfl

theorem Stands.rouse (stands : session.Stands [.asleep] cache) :
    session.Stands [.looking] (cache.perform (.rouse 0)) := by
  rw [SharedCache.perform, SharedCache.rouse, stands.found]
  exact stands.setPhase .looking

theorem Stands.load {dequeued : Dequeued} (stands : session.Stands [.holding dequeued] cache)
    (outcome : Outcome Image) :
    session.Stands [.finished (dequeued.result outcome)] (cache.perform (.load 0 outcome)) := by
  rw [SharedCache.perform, SharedCache.load, stands.found]
  exact stands.setPhase (.finished (dequeued.result outcome))

theorem Stands.notified (stands : session.Stands [.notifying] cache) :
    session.Stands [.looking] (cache.perform (.notified 0)) := by
  rw [SharedCache.perform, SharedCache.notified, stands.found]
  exact stands.setPhase .looking

theorem Stands.crash (stands : session.Stands [.notifying] cache) :
    session.Stands [.dying] (cache.perform (.crash 0)) := by
  rw [SharedCache.perform, SharedCache.crash, stands.found]
  exact stands.setPhase .dying

theorem Stands.post {result : LoadResult} (stands : session.Stands [.finished result] cache) :
    Stands
      { session with
        inbox := { session.inbox with results := session.inbox.results ++ [result] } }
      [.notifying] (cache.perform (.post 0)) := by
  have posted : cache.inbox.post result =
      some { session.inbox with results := session.inbox.results ++ [result] } := by
    simp [Inbox.post, stands.inbox, stands.unclosed]
  have sent : Stands
      { session with
        inbox := { session.inbox with results := session.inbox.results ++ [result] } }
      [.finished result]
      { cache with
        inbox := { session.inbox with results := session.inbox.results ++ [result] } } :=
    ⟨stands.state, rfl, stands.loaders, stands.received, stands.starts, stands.unclosed,
      stands.tidy, stands.started⟩
  rw [SharedCache.perform, SharedCache.post, stands.found]
  simp only [posted]
  exact sent.setPhase .notifying

theorem Stands.handBack (stands : session.Stands [.dying] cache) :
    Stands { session with state := session.state.loaderLost } []
      (cache.perform (.handBack 0)) := by
  rw [SharedCache.perform, SharedCache.handBack, stands.found]
  refine ⟨?_, stands.inbox, ?_, stands.received, stands.starts, stands.unclosed, ?_, ?_⟩
  · simp [SharedCache.dropLoader, stands.state]
  · simp [SharedCache.dropLoader, stands.loaders]
  · rcases stands.effect (rfl : session.state.perform .loaderLost = _) with ⟨_, next, _, nextTidy⟩
    exact ⟨next, nextTidy⟩
  · intro _ present
    exact absurd rfl present

/-- A loader that finds the cache shutting down stops. -/
theorem Stands.stop (stands : session.Stands [.looking] cache)
    (closing : session.state.shuttingDown = true) :
    session.Stands [] (cache.perform (.look 0)) := by
  have closing' : cache.state.shuttingDown = true := by rw [stands.state, closing]
  rw [SharedCache.perform, SharedCache.look, stands.found]
  simp only [closing', if_true]
  refine ⟨stands.state, stands.inbox, ?_, stands.received, stands.starts, stands.unclosed,
    stands.tidy, ?_⟩
  · simp [SharedCache.dropLoader, stands.loaders]
  · intro _ present
    exact absurd rfl present

theorem Stands.take (stands : session.Stands [.looking] cache)
    (running : session.state.shuttingDown = false) {dequeued : Dequeued} {state : CacheState}
    (jobEq : session.state.nextJob = (some dequeued, state)) :
    Stands { session with state } [.holding dequeued] (cache.perform (.look 0)) := by
  have performEq : session.state.perform .nextJob = (.taken (some dequeued), state) := by
    simp [CacheState.perform, jobEq]
  rcases stands.effect performEq with ⟨view, next, effect, nextTidy⟩
  have taken : Stands { session with state } [.looking]
      { cache with state, dequeued := cache.dequeued ++ [dequeued.id] } := by
    refine ⟨rfl, stands.inbox, stands.loaders, stands.received, stands.starts, stands.unclosed,
      ⟨next, nextTidy⟩, fun _ _ => ?_⟩
    exact (effect.loaderStarted_eq (by simp) (by simp)).trans (stands.started running (by simp))
  rw [SharedCache.perform, SharedCache.look, stands.found]
  simp only [stands.state, running, Bool.false_eq_true, if_false, jobEq]
  exact taken.setPhase (.holding dequeued)

theorem follows_post {result : LoadResult} (stands : session.Stands [.finished result] cache) :
    Follows setup cache (session.post setup result) := by
  have posted : session.inbox.post result =
      some { session.inbox with results := session.inbox.results ++ [result] } := by
    simp [Inbox.post, stands.unclosed]
  have sent := stands.post
  simp only [Session.post, posted, Option.getD_some]
  split
  · rename_i breaks
    refine .after_move (.post 0) (fun _ => rfl) ?_
    refine .after_move (.crash 0) ?_ ?_
    · intro quiet
      simp [quiet] at breaks
    · refine .after_move (.handBack 0) (fun _ => rfl) ?_
      exact follows_of_shown ⟨[], .absent, sent.crash.handBack.congr rfl rfl⟩
  · refine .after_move (.post 0) (fun _ => rfl) ?_
    refine .after_move (.notified 0) (fun _ => rfl) ?_
    exact follows_of_shown ⟨[.looking], .looking, sent.notified.congr rfl rfl⟩

theorem follows_conclude {job : LoadJob} (stands : session.Stands [.holding (.load job)] cache)
    (outcome : Outcome Image) (files : FileSystem) :
    Follows setup cache (session.conclude setup job outcome files) := by
  refine .after_move (.load 0 outcome) (fun _ => rfl) ?_
  exact follows_post ((stands.load outcome).congr rfl rfl)

/-- A call that is neither a request nor the loss of a loader. -/
theorem Stands.underLock (stands : session.Stands phases cache) (call : CacheCall)
    (unasked : ∀ key generator subscriber, call ≠ .request key generator subscriber)
    (kept : call ≠ .loaderLost) :
    Stands { session with state := (session.state.perform call).2 } phases
      (cache.underLock call) := by
  rcases stands.effect (Prod.eta (session.state.perform call)).symm with
    ⟨view, next, effect, nextTidy⟩
  refine ⟨?_, stands.inbox, stands.loaders, stands.received, stands.starts, stands.unclosed,
    ⟨next, nextTidy⟩, fun running present => ?_⟩
  · rw [SharedCache.underLock, stands.state]
  · rw [effect.loaderStarted_eq unasked kept]
    exact stands.started (effect.running_before running) present

theorem reaches_underLock (move : Move) (call : CacheCall)
    (performs : ∀ cache : SharedCache, cache.perform move = cache.underLock call)
    (calm : move.isCalm = true)
    (unasked : ∀ key generator subscriber, call ≠ .request key generator subscriber)
    (kept : call ≠ .loaderLost) (session : Session) :
    Reaches setup session { session with state := (session.state.perform call).2 } := by
  rintro cache ⟨phases, shows, stands⟩
  refine .after_move move (fun _ => calm) ?_
  rw [performs]
  exact follows_of_shown ⟨phases, shows, stands.underLock call unasked kept⟩

section Request

variable {key : ThumbnailKey} {generator : Generator} {subscriber : SubscriberId}
  {status : RequestStatus} {wake : Wake} {state : CacheState}

theorem Stands.effect_request (stands : session.Stands phases cache)
    (requestEq : session.state.request key generator subscriber = (status, wake, state)) :
    ∃ view next, session.state.Effect view (.request key generator subscriber)
      (.status status wake) state next ∧ state.Tidy next := by
  apply stands.effect
  simp [CacheState.perform, requestEq]

/-- A loader that was there before a request is there afterwards. -/
theorem Stands.started_request (stands : session.Stands phases cache)
    (requestEq : session.state.request key generator subscriber = (status, wake, state))
    (running : state.shuttingDown = false) (present : phases ≠ []) :
    state.loaderStarted = true ∧ wake ≠ .start := by
  rcases stands.effect_request requestEq with ⟨view, next, effect, _⟩
  have started := stands.started (effect.running_before running) present
  have claim := effect.claim_eq
  rw [started] at claim
  cases after : state.loaderStarted <;> by_cases starts : wake = .start <;>
    simp [after, starts] at claim ⊢

/-- A request is told to start a loader only if there is none. -/
theorem Stands.request_start (stands : session.Stands phases cache)
    (requestEq : session.state.request key generator subscriber = (status, .start, state)) :
    Stands { session with state } [.looking]
      ((cache.perform (.request key generator subscriber)).perform .start) := by
  rcases stands.effect_request requestEq with ⟨view, next, effect, nextTidy⟩
  have running := effect.running_of_start
  have alone : phases = [] := by
    by_contra present
    exact (stands.started_request requestEq running present).2 rfl
  refine ⟨?_, ?_, ?_, ?_, ?_, stands.unclosed, ⟨next, nextTidy⟩, fun _ _ => ?_⟩
  case refine_6 =>
    have claim := effect.claim_eq
    cases after : state.loaderStarted
    · simp [after] at claim
    · rfl
  all_goals
    simp only [SharedCache.perform, SharedCache.request, SharedCache.start, stands.state,
      requestEq, stands.starts, if_true]
  · exact stands.inbox
  · rw [stands.loaders, alone]
    rfl
  · exact stands.received

theorem Stands.request_notify (stands : session.Stands phases cache)
    (requestEq : session.state.request key generator subscriber = (status, .notify, state)) :
    Stands { session with state } (phases.map LoaderPhase.roused)
      ((cache.perform (.request key generator subscriber)).perform .notify) := by
  rcases stands.effect_request requestEq with ⟨view, next, effect, nextTidy⟩
  refine ⟨?_, ?_, ?_, ?_, ?_, stands.unclosed, ⟨next, nextTidy⟩, fun running present => ?_⟩
  case refine_6 =>
    exact (stands.started_request requestEq running (by simpa using present)).1
  all_goals
    simp only [SharedCache.perform, SharedCache.request, SharedCache.notify, stands.state,
      requestEq, if_true]
  · exact stands.inbox
  · rw [stands.loaders]
  · exact stands.received
  · simp [stands.starts]

theorem Stands.request_quiet (stands : session.Stands phases cache)
    (requestEq : session.state.request key generator subscriber = (status, .nothing, state)) :
    Stands { session with state } phases (cache.perform (.request key generator subscriber)) := by
  rcases stands.effect_request requestEq with ⟨view, next, effect, nextTidy⟩
  refine ⟨?_, ?_, ?_, ?_, ?_, stands.unclosed, ⟨next, nextTidy⟩, fun running present => ?_⟩
  case refine_6 => exact (stands.started_request requestEq running present).1
  all_goals simp only [SharedCache.perform, SharedCache.request, stands.state, requestEq]
  · exact stands.inbox
  · exact stands.loaders
  · exact stands.received
  · simp [stands.starts]

theorem follows_request (shows : session.loader.Shows phases)
    (stands : session.Stands phases cache)
    (requestEq : session.state.request key generator subscriber = (status, wake, state))
    (handlers : Handlers) :
    Follows setup cache
      { session with
        state
        handlers
        loader := if wake = .start then .waiting else session.loader } := by
  refine .after_move (.request key generator subscriber) (fun _ => rfl) ?_
  cases wake with
  | start =>
      refine .after_move .start (fun _ => rfl) ?_
      exact follows_of_shown
        ⟨[.looking], .looking, (stands.request_start requestEq).congr rfl rfl⟩
  | notify =>
      refine .after_move .notify (fun _ => rfl) ?_
      exact follows_of_shown ⟨_, shows.roused, (stands.request_notify requestEq).congr rfl rfl⟩
  | nothing =>
      exact follows_of_shown ⟨phases, shows, (stands.request_quiet requestEq).congr rfl rfl⟩

theorem reaches_request (session : Session) (key : ThumbnailKey) (generator : Generator)
    (handler : Option String) :
    Reaches setup session (session.request key generator handler).2 := by
  rintro cache ⟨phases, shows, stands⟩
  exact follows_request shows stands rfl _

end Request

theorem reaches_setDirectory (session : Session) (directory : Path) :
    Reaches setup session (session.setDirectory directory) := by
  refine (reaches_underLock (.changeDirectory directory.normalize)
    (.changeDirectory directory.normalize) (fun _ => rfl) rfl nofun nofun session).trans ?_
  simp only [Session.setDirectory]
  simp only [CacheState.perform]
  split
  · rename_i state changed
    exact reaches_of_same (by simp [changed]) rfl rfl
  · rename_i state changed
    exact reaches_of_same (by simp [changed]) rfl rfl

/-- A loader that waits for work when the cache shuts down finds out and stops. -/
theorem follows_stop (shown : session.ShownBy cache) (unheld : session.loader.isHeld = false)
    (closing : session.state.shuttingDown = true) :
    Follows setup cache { session with loader := .absent } := by
  rcases shown with ⟨phases, shows, stands⟩
  cases loader : session.loader with
  | absent =>
      rw [loader] at shows
      cases shows
      exact follows_of_shown ⟨[], .absent, stands.congr rfl rfl⟩
  | waiting =>
      rw [loader] at shows
      cases shows with
      | looking =>
          refine .after_move (.look 0) (fun _ => rfl) ?_
          exact follows_of_shown ⟨[], .absent, (stands.stop closing).congr rfl rfl⟩
      | asleep =>
          refine .after_move (.rouse 0) (fun _ => rfl) ?_
          refine .after_move (.look 0) (fun _ => rfl) ?_
          exact follows_of_shown ⟨[], .absent, (stands.rouse.stop closing).congr rfl rfl⟩
  | held job => simp [loader, Loader.isHeld] at unheld

theorem reaches_stop (unheld : session.loader.isHeld = false)
    (closing : session.state.shuttingDown = true) :
    Reaches setup session { session with loader := .absent } :=
  fun _ shown => follows_stop shown unheld closing

theorem post_loader (session : Session) (result : LoadResult) :
    (session.post setup result).loader.isHeld = false ∧
      (session.post setup result).state.shuttingDown = session.state.shuttingDown := by
  simp only [Session.post]
  split
  · exact ⟨rfl, rfl⟩
  · exact ⟨rfl, rfl⟩

/-- A result is received and applied at once. -/
theorem Stands.dispatch (stands : session.Stands phases cache) {result : LoadResult}
    {results : List LoadResult} (posted : session.inbox.results = result :: results)
    {completion : Option Completion} {state : CacheState}
    (completeEq : session.state.complete result = (completion, state)) :
    Stands { session with state, inbox := { session.inbox with results } } phases
      ((cache.perform (.receive 0)).perform (.apply 0)) := by
  have performEq : session.state.perform (.complete result) = (.completed completion, state) := by
    simp [CacheState.perform, completeEq]
  rcases stands.effect performEq with ⟨view, next, effect, nextTidy⟩
  have received : cache.perform (.receive 0) =
      { cache with
        inbox := { session.inbox with results }
        received := [⟨0, result⟩]
        drainers := cache.drainers ++ [0] } := by
    simp [SharedCache.perform, SharedCache.receive, stands.received, stands.inbox, posted]
  rw [received]
  simp only [SharedCache.perform, SharedCache.apply, SharedCache.settle, stands.state,
    completeEq, List.find?_cons, List.eraseP_cons, decide_true, cond_true]
  refine ⟨rfl, rfl, stands.loaders, rfl, stands.starts, stands.unclosed, ⟨next, nextTidy⟩, ?_⟩
  intro running present
  rw [effect.loaderStarted_eq (by simp) (by simp)]
  exact stands.started (effect.running_before running) present

section Delivery

variable {perform : Session → Command → Reply × Session}
  (performs : ∀ session command, Reaches setup session (perform session command).2)
include performs

theorem reaches_performAll (commands : List Command) (session : Session) :
    Reaches setup session (performAll perform commands session).2 := by
  induction commands generalizing session with
  | nil => exact .refl session
  | cons command commands ih => exact (performs session command).trans (ih _)

theorem reaches_tell (notice : Notice) (subscribers : List SubscriberId) (session : Session) :
    Reaches setup session (tell setup perform notice subscribers session) := by
  induction subscribers generalizing session with
  | nil => exact .refl session
  | cons id subscribers ih =>
      rw [tell]
      split
      · exact ih session
      · rename_i name alive
        have enters : Reaches setup session
            { session with handlers := session.handlers.enter name id } :=
          reaches_of_same rfl rfl rfl
        refine enters.trans ((reaches_performAll performs (setup.script name) _).trans ?_)
        refine Reaches.trans ?_ (ih _)
        exact reaches_of_same rfl rfl rfl

theorem reaches_dispatch (dispatched : dispatch? setup perform session = some next) :
    Reaches setup session next := by
  simp only [dispatch?] at dispatched
  split at dispatched
  · cases dispatched
  · rename_i result results posted
    rcases completeEq : session.state.complete result with ⟨completion, state⟩
    have applies : Reaches setup session
        { session with state, inbox := { session.inbox with results } } := by
      rintro cache ⟨phases, shows, stands⟩
      refine .after_move (.receive 0) (fun _ => rfl) ?_
      refine .after_move (.apply 0) (fun _ => rfl) ?_
      exact follows_of_shown ⟨phases, shows, stands.dispatch posted completeEq⟩
    simp only [completeEq] at dispatched
    split at dispatched <;> cases dispatched
    · exact applies
    · exact applies.trans (reaches_tell performs _ _ _)

theorem reaches_drain (rounds : Nat) (session : Session) :
    Reaches setup session (drain setup perform rounds session).2 := by
  induction rounds generalizing session with
  | zero => exact .refl session
  | succ rounds ih =>
      rw [drain]
      split
      · exact .refl session
      · rename_i next dispatched
        exact (reaches_dispatch performs dispatched).trans (ih next)

end Delivery

theorem shownBy_start {config : Config} {files : FileSystem}
    (opens : start config files = .ok session) :
    session.ShownBy (SharedCache.new config config.cacheDirectory.normalize) := by
  simp only [start, Config.validate] at opens
  split at opens
  · cases opens
  · cases opens
    refine ⟨[], .absent, rfl, rfl, rfl, rfl, rfl, rfl, ⟨_, CacheState.Tidy.new config _⟩, ?_⟩
    intro _ present
    exact absurd rfl present

/-- The records whose results were posted, and the one whose job is held. -/
def underWay (session : Session) : List RecordId :=
  session.inbox.results.map LoadResult.id ++
    match session.loader with
    | .held job => [job.id]
    | _ => []

theorem ShownBy.inFlight_eq (shown : session.ShownBy cache) :
    cache.inFlight = session.underWay := by
  rcases shown with ⟨phases, shows, stands⟩
  rw [SharedCache.inFlight, stands.received, stands.inbox, stands.loaders, underWay]
  generalize session.loader = loader at shows
  cases shows <;> rfl

variable [ImageLibrary]

theorem follows_resume {job : LoadJob} (stands : session.Stands [.holding (.load job)] cache) :
    Follows setup cache (session.resume setup job) :=
  follows_conclude stands _ _

theorem follows_load {job : LoadJob} (stands : session.Stands [.holding (.load job)] cache) :
    Follows setup cache (session.load setup job) := by
  simp only [Session.load]
  split
  · exact follows_conclude stands _ _
  · split
    · exact follows_of_shown ⟨[.holding (.load job)], .held job, stands.congr rfl rfl⟩
    · exact follows_resume (stands.congr rfl rfl)

/-- A step of the loader, once it is awake. -/
theorem follows_loaderStep (stands : session.Stands [.looking] cache)
    (waiting : session.loader = .waiting) (step : session.loaderStep? setup = some next) :
    Follows setup cache next := by
  simp only [Session.loaderStep?, waiting] at step
  split at step
  · rename_i closing
    cases step
    refine .after_move (.look 0) (fun _ => rfl) ?_
    exact follows_of_shown ⟨[], .absent, (stands.stop closing).congr rfl rfl⟩
  · rename_i open_
    have running : session.state.shuttingDown = false := by simpa using open_
    split at step
    · cases step
    · rename_i id state jobEq
      cases step
      refine .after_move (.look 0) (fun _ => rfl) ?_
      refine .after_move (.load 0 .crashed) (fun _ => rfl) ?_
      exact follows_post (((stands.take running jobEq).load .crashed).congr rfl rfl)
    · rename_i job state jobEq
      cases step
      refine .after_move (.look 0) (fun _ => rfl) ?_
      exact follows_load ((stands.take running jobEq).congr rfl rfl)

theorem reaches_loaderStep (step : session.loaderStep? setup = some next) :
    Reaches setup session next := by
  rintro cache ⟨phases, shows, stands⟩
  cases loader : session.loader with
  | absent => simp [Session.loaderStep?, loader] at step
  | held job => simp [Session.loaderStep?, loader] at step
  | waiting =>
      rw [loader] at shows
      cases shows with
      | looking => exact follows_loaderStep stands loader step
      | asleep =>
          refine .after_move (.rouse 0) (fun _ => rfl) ?_
          exact follows_loaderStep stands.rouse loader step

theorem reaches_runLoaderFor (fuel : Nat) (session : Session) :
    Reaches setup session (runLoaderFor setup fuel session) := by
  induction fuel generalizing session with
  | zero => exact .refl session
  | succ fuel ih =>
      rw [runLoaderFor]
      split
      · exact .refl session
      · rename_i next step
        exact (reaches_loaderStep step).trans (ih next)

theorem reaches_writeThumbnail (session : Session) (path : Path) (source : Image)
    (generator : Generator) :
    Reaches setup session (session.writeThumbnail path source generator).2 := by
  rcases session.exists_files_writeThumbnail path source generator with ⟨files, written⟩
  rw [written]
  exact reaches_of_same rfl rfl rfl

theorem reaches_ensure (session : Session) (key : ThumbnailKey) (source : Image)
    (generator : Generator) :
    Reaches setup session (session.ensure key source generator).2 := by
  rw [ensure_eq]
  split
  · exact .refl session
  · split
    · exact .refl session
    · exact reaches_writeThumbnail session _ source generator

theorem reaches_recreate (session : Session) (key : ThumbnailKey) (source : Image)
    (generator : Generator) :
    Reaches setup session (session.recreate key source generator).2 := by
  simp only [Session.recreate]
  split
  · exact .refl session
  · rename_i path target
    have writes : Reaches setup session (session.writeThumbnail path source generator).2 :=
      reaches_writeThumbnail session path source generator
    split <;> rename_i written writeEq <;> rw [writeEq] at writes
    · exact writes
    · refine writes.trans ?_
      exact reaches_underLock (.recreate key) (.forgetFinished key) (fun _ => rfl) rfl nofun nofun
        written

theorem reaches_resume {job : LoadJob} (held : session.loader = .held job) :
    Reaches setup session (session.resume setup job) := by
  rintro cache ⟨phases, shows, stands⟩
  rw [held] at shows
  cases shows
  exact follows_resume stands

theorem reaches_shutDown (session : Session) :
    Reaches setup session (session.shutDown setup) := by
  refine (reaches_underLock .shutDown .shutDown (fun _ => rfl) rfl nofun nofun session).trans ?_
  simp only [Session.shutDown]
  cases loader : session.loader with
  | absent => exact reaches_stop rfl rfl
  | waiting => exact reaches_stop rfl rfl
  | held job =>
      refine (reaches_resume rfl).trans (reaches_stop ?_ ?_)
      · exact (post_loader _ _).1
      · exact (post_loader _ _).2

/-- A command does what moves can do, however deep handlers call handlers. -/
theorem reaches_perform (depth : Nat) (session : Session) (command : Command) :
    Reaches setup session (session.perform setup depth command).2 := by
  induction depth generalizing session command with
  | zero => exact .refl session
  | succ depth ih =>
      cases command with
      | request key generator handler => exact reaches_request session key generator handler
      | peek key =>
          exact reaches_underLock (.peek key) (.peek key) (fun _ => rfl) rfl nofun nofun session
      | ensure key source generator => exact reaches_ensure session key source generator
      | recreate key source generator => exact reaches_recreate session key source generator
      | setDirectory directory => exact reaches_setDirectory session directory
      | directory => exact .refl session
      | process => exact reaches_drain ih session.outstanding session
      | wait =>
          rw [Session.perform]
          split
          · rename_i next dispatched
            exact reaches_dispatch ih dispatched
          · exact .refl session
      | release =>
          rw [Session.perform]
          split
          · rename_i job held
            exact reaches_resume held
          · exact .refl session
      | dropHandler handler => exact reaches_of_same rfl rfl rfl
      | shutDown => exact reaches_shutDown session
      | describe => exact .refl session
      | edit path edit => exact reaches_of_same rfl rfl rfl
      | editThumbnail key directory edit => exact reaches_of_same rfl rfl rfl
      | nothing => exact .refl session

theorem reaches_step (session : Session) (command : Command) :
    Reaches setup session (session.step setup command).2 := by
  have clears : Reaches setup session { session with journal := Journal.empty } :=
    reaches_of_same rfl rfl rfl
  refine clears.trans ((reaches_perform (session.outstanding + 1) _ command).trans ?_)
  exact reaches_runLoaderFor _ _

/-- Whatever a session is asked to do, threads that share a cache can bring that cache to the state
and the inbox of the session. -/
theorem follows_start {config : Config} {files : FileSystem}
    (opens : start config files = .ok session) (commands : List Command) :
    Follows setup (SharedCache.new config config.cacheDirectory.normalize)
      (performAll (step setup) commands session).2 :=
  reaches_performAll reaches_step commands session _ (shownBy_start opens)

/-- Until a session begins to shut down, the records in progress are those under way, each of them
once. -/
theorem underWay_iff {config : Config} {files : FileSystem} {opened : Session}
    (opens : start config files = .ok opened) (commands : List Command)
    (sessionEq : (performAll (step setup) commands opened).2 = session)
    (quiet : setup.notifierCrashes = []) (running : session.state.shuttingDown = false) :
    session.underWay.Nodup ∧
      ∀ id, id ∈ session.underWay ↔ session.state.store.statusOf? id = some .inProgress := by
  rcases follows_start opens commands with ⟨moves, calm, shown⟩
  rw [sessionEq] at shown
  rcases SharedCache.guarded_after config _ (calm quiet) with ⟨view, tidy, sound⟩
  rw [← shown.inFlight_eq]
  rcases shown with ⟨phases, _, stands⟩
  rw [stands.state] at tidy sound
  refine ⟨(sound running).nodup, ?_⟩
  intro id
  rw [tidy.statusOf?_eq]
  exact (sound running).inFlight_iff id

end Session

end Thumbnails
