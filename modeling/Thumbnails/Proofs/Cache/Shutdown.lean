import Thumbnails.Proofs.Cache.Interleaving
import Thumbnails.Proofs.Cache.Turns

/-!
# Shutting down

A cache that shuts down still has results under way, and threads go on to call it. Each place where
that could matter looks at the same flag for itself: requests, peeks, results that come in, the
place of a file, and the loader before it takes a job. `CacheState.shutDown_absorbs` says that none
is missing. Whatever is done from then on, nobody is told of anything, and the records stay as they
are.

The last step of a recreation does not look at the flag. It is never reached by one that begins
after the cache shuts down, but it may belong to one that began before.
-/

namespace Thumbnails

namespace CacheState

/-- Nothing differs but the directory, the clock, and whether a loader runs. -/
def Rests (state next : CacheState) : Prop :=
  next = { state with
    directory := next.directory
    clock := next.clock
    loaderStarted := next.loaderStarted }

/-- What a state answers that has no part in anything any more. -/
structure Refuses (state : CacheState) : Prop where
  request : ∀ key generator subscriber,
    state.request key generator subscriber = (.loadFailed none, .nothing, state)
  peek : ∀ key, state.peek key = (.loadFailed none, state)
  complete : ∀ result, state.complete result = (none, state)

variable {state middle next : CacheState}

theorem Rests.refl (state : CacheState) : state.Rests state :=
  rfl

theorem Rests.trans (first : state.Rests middle) (second : middle.Rests next) :
    state.Rests next := by
  rw [Rests, second, first]

theorem Rests.of_eq (same : next = state) : state.Rests next :=
  same ▸ .refl state

theorem Rests.closing (rests : state.Rests next) (closing : state.shuttingDown = true) :
    next.shuttingDown = true := by
  rw [rests]
  exact closing

theorem rests_loaderLost (state : CacheState) : state.Rests state.loaderLost :=
  rfl

theorem changeDirectory_snd (state : CacheState) (directory : Path) : ∃ kept clock,
    (state.changeDirectory directory).2 = { state with directory := kept, clock } := by
  rw [changeDirectory]
  split
  · exact ⟨state.directory, state.clock, rfl⟩
  · rcases expireQueued_eq { state with directory } with ⟨clock, expired⟩
    exact ⟨directory, clock, expired⟩

theorem refuses (closing : state.shuttingDown = true) : state.Refuses := by
  refine ⟨?_, ?_, ?_⟩
  · intro key generator subscriber
    rw [CacheState.request, if_pos closing]
  · intro key
    rw [CacheState.peek, if_pos closing]
  · intro result
    rw [CacheState.complete, if_pos closing]

end CacheState

namespace Session

/-- A session in which nobody was told of anything, no job was taken, and the state rests. -/
structure Rests (session next : Session) : Prop where
  state : session.state.Rests next.state
  events : next.journal.events = session.journal.events
  decoded : next.journal.decoded = session.journal.decoded
  held : ∀ job, next.loader = .held job → session.loader = .held job

variable {setup : Setup} {session middle next : Session}
  {perform : Session → Command → Reply × Session}

namespace Rests

theorem refl (session : Session) : session.Rests session :=
  ⟨.refl _, rfl, rfl, fun _ held => held⟩

theorem trans (first : session.Rests middle) (second : middle.Rests next) :
    session.Rests next := by
  refine ⟨first.state.trans second.state, second.events.trans first.events,
    second.decoded.trans first.decoded, ?_⟩
  intro job held
  exact first.held job (second.held job held)

theorem stop (rests : session.Rests next) : session.Rests { next with loader := .absent } := by
  refine ⟨rests.state, rests.events, rests.decoded, ?_⟩
  intro job held
  cases held

end Rests

theorem dispatch?_of_closing (closing : session.state.shuttingDown = true) :
    dispatch? setup perform session = session.inbox.results.head?.map fun _ =>
      { session with inbox := { session.inbox with results := session.inbox.results.tail } } := by
  rw [dispatch?]
  cases session.inbox.results with
  | nil => rfl
  | cons result results =>
      simp only [(CacheState.refuses closing).complete]
      rfl

theorem empty_inbox (empty : session.inbox.results = []) :
    { session with inbox := { session.inbox with results := [] } } = session := by
  rw [← empty]

theorem drain_of_closing (session : Session) (closing : session.state.shuttingDown = true)
    (rounds : Nat) (enough : session.inbox.results.length ≤ rounds) :
    drain setup perform rounds session =
      (session.inbox.results.length,
        { session with inbox := { session.inbox with results := [] } }) := by
  induction rounds generalizing session with
  | zero =>
      have empty := List.eq_nil_of_length_eq_zero (Nat.le_zero.mp enough)
      rw [drain, empty_inbox empty, empty]
      rfl
  | succ rounds ih =>
      rw [drain, dispatch?_of_closing closing]
      cases resultsEq : session.inbox.results with
      | nil =>
          rw [empty_inbox resultsEq]
          rfl
      | cons result results =>
          simp only [List.head?_cons, Option.map_some, List.tail_cons, List.length_cons]
          rw [resultsEq] at enough
          rw [ih { session with inbox := { session.inbox with results } } closing
            (Nat.le_of_succ_le_succ enough)]

theorem target?_of_closing (closing : session.state.shuttingDown = true) (key : ThumbnailKey)
    (source : Image) : session.target? key source = none := by
  rw [target?, closing, Bool.or_true, if_pos rfl]

variable [ImageLibrary]

/-- What is left of each command and of the loader when the cache shuts down. -/
structure Refuses (setup : Setup) (session : Session) : Prop where
  request : ∀ depth key generator handler, ∃ handlers,
    session.perform setup (depth + 1) (.request key generator handler) =
      (.status (.loadFailed none), { session with handlers })
  peek : ∀ depth key, session.perform setup (depth + 1) (.peek key) =
    (.status (.loadFailed none), session)
  ensure : ∀ depth key source generator,
    session.perform setup (depth + 1) (.ensure key source generator) = (.flag false, session)
  recreate : ∀ depth key source generator,
    session.perform setup (depth + 1) (.recreate key source generator) = (.flag false, session)
  /-- Results are taken out of the inbox, and that is all. -/
  process : ∀ depth, session.perform setup (depth + 1) .process =
    (.count session.inbox.results.length,
      { session with inbox := { session.inbox with results := [] } })
  wait : ∀ depth, session.perform setup (depth + 1) .wait =
    (.flag (!session.inbox.results.isEmpty),
      { session with inbox := { session.inbox with results := session.inbox.results.tail } })
  setDirectory : ∀ depth directory, ∃ kept clock files,
    session.perform setup (depth + 1) (.setDirectory directory) =
      (.path kept,
        { session with state := { session.state with directory := kept, clock }, files })
  /-- A job that is held goes on to its end, and its result is posted. -/
  resume : ∀ job, (session.resume setup job).state = session.state ∨
    (session.resume setup job).state = session.state.loaderLost
  /-- The loader that looks for work stops. -/
  loader : ∀ next, session.loaderStep? setup = some next →
    next = { session with loader := .absent }

theorem state_resume (setup : Setup) (session : Session) (job : LoadJob) :
    (session.resume setup job).state = session.state ∨
      (session.resume setup job).state = session.state.loaderLost := by
  simp only [resume, conclude, post]
  split
  · exact .inr rfl
  · exact .inl rfl

/-- A job that comes to its end is no longer held, and nobody is told by that alone. -/
theorem rests_resume (session : Session) (job : LoadJob) :
    session.Rests (session.resume setup job) := by
  refine ⟨?_, ?_, ?_, ?_⟩
  · rcases state_resume setup session job with same | lost
    · exact .of_eq same
    · rw [lost]
      exact CacheState.rests_loaderLost session.state
  · simp only [resume, conclude, post]
    split <;> rfl
  · simp only [resume, conclude, post]
    split <;> rfl
  · intro other held
    simp only [resume, conclude, post] at held
    split at held <;> cases held

theorem perform_setDirectory (session : Session) (depth : Nat) (directory : Path) :
    ∃ kept clock files, session.perform setup (depth + 1) (.setDirectory directory) =
      (.path kept,
        { session with state := { session.state with directory := kept, clock }, files }) := by
  rcases session.state.changeDirectory_snd directory.normalize with ⟨kept, clock, changed⟩
  rw [perform, setDirectory]
  rcases changeEq : session.state.changeDirectory directory.normalize with ⟨_ | _, state⟩
  all_goals
    rw [changeEq] at changed
    cases changed
    exact ⟨kept, clock, _, rfl⟩

theorem refuses (setup : Setup) (closing : session.state.shuttingDown = true) :
    session.Refuses setup := by
  have refused := CacheState.refuses closing
  refine ⟨?_, ?_, ?_, ?_, ?_, ?_, perform_setDirectory session,
    state_resume setup session, ?_⟩
  · intro depth key generator handler
    simp only [perform, request, refused.request]
    exact ⟨_, rfl⟩
  · intro depth key
    simp only [perform, refused.peek]
  · intro depth key source generator
    simp only [perform, ensure_eq, target?_of_closing closing]
  · intro depth key source generator
    simp only [perform, recreate, target?_of_closing closing]
  · intro depth
    rw [perform, drain_of_closing session closing]
    exact Nat.le_add_right _ _
  · intro depth
    rw [perform, dispatch?_of_closing closing]
    cases resultsEq : session.inbox.results with
    | nil =>
        rw [List.tail_nil, empty_inbox resultsEq]
        rfl
    | cons result results => rfl
  · intro next progress
    rw [loaderStep?] at progress
    split at progress
    · cases progress
    · cases progress
    · rw [if_pos closing] at progress
      exact (Option.some.inj progress).symm

/-- A command leaves a session at rest. No handler is called, so it does not matter what they would
do. -/
theorem rests_perform (closing : session.state.shuttingDown = true) (depth : Nat)
    (command : Command) : session.Rests (session.perform setup (depth + 1) command).2 := by
  have refused := refuses setup closing
  have alike : ∀ {next : Session}, next.state = session.state → next.journal = session.journal →
      next.loader = session.loader → session.Rests next := by
    intro next stateEq journalEq loaderEq
    refine ⟨.of_eq stateEq, by rw [journalEq], by rw [journalEq], ?_⟩
    intro job held
    rwa [← loaderEq]
  cases command with
  | request key generator handler =>
      rcases refused.request depth key generator handler with ⟨handlers, performEq⟩
      rw [performEq]
      exact alike rfl rfl rfl
  | peek key =>
      rw [refused.peek]
      exact .refl session
  | ensure key source generator =>
      rw [refused.ensure]
      exact .refl session
  | recreate key source generator =>
      rw [refused.recreate]
      exact .refl session
  | process =>
      rw [refused.process]
      exact alike rfl rfl rfl
  | wait =>
      rw [refused.wait]
      exact alike rfl rfl rfl
  | setDirectory directory =>
      rcases refused.setDirectory depth directory with ⟨kept, clock, files, performEq⟩
      rw [performEq]
      exact ⟨rfl, rfl, rfl, fun _ held => held⟩
  | release =>
      rw [perform]
      split
      · exact rests_resume session _
      · exact .refl session
  | shutDown =>
      have same : { session with state := session.state.shutDown } = session := by
        rw [CacheState.shutDown, ← closing]
      simp only [perform, Session.shutDown, same]
      apply Rests.stop
      split
      · exact rests_resume session _
      · exact .refl session
  | directory => exact .refl session
  | describe => exact .refl session
  | nothing => exact .refl session
  | dropHandler handler => exact alike rfl rfl rfl
  | edit path edit => exact alike rfl rfl rfl
  | editThumbnail key directory edit => exact alike rfl rfl rfl

theorem rests_after (setup : Setup) (closing : session.state.shuttingDown = true)
    (turns : List SessionTurn) : session.Rests (session.after setup turns) := by
  induction turns using List.reverseRecOn with
  | nil => exact .refl session
  | append_singleton turns turn ih =>
      have stillClosing := ih.state.closing closing
      rw [after_concat]
      refine ih.trans ?_
      cases turn with
      | command command => exact rests_perform stillClosing _ command
      | loader =>
          rw [takeTurn]
          cases progress : (session.after setup turns).loaderStep? setup with
          | none => exact .refl _
          | some next =>
              rw [Option.getD_some, (refuses setup stillClosing).loader next progress]
              exact (Rests.refl _).stop

end Session

namespace SharedCache

/-- A cache for which no record was made and no job was taken, and whose state rests. -/
structure Rests (cache next : SharedCache) : Prop where
  state : cache.state.Rests next.state
  created : next.created = cache.created
  dequeued : next.dequeued = cache.dequeued

variable {cache middle next : SharedCache}

namespace Rests

theorem refl (cache : SharedCache) : cache.Rests cache :=
  ⟨.refl _, rfl, rfl⟩

theorem trans (first : cache.Rests middle) (second : middle.Rests next) : cache.Rests next :=
  ⟨first.state.trans second.state, second.created.trans first.created,
    second.dequeued.trans first.dequeued⟩

end Rests

theorem rests_look (closing : cache.state.shuttingDown = true) (loader : Nat) :
    cache.Rests (cache.look loader) := by
  simp only [look, if_pos closing]
  split <;> exact ⟨.refl _, rfl, rfl⟩

/-- A loader takes no job any more, so the only one to break down over is in its hand. -/
theorem rests_crash (closing : cache.state.shuttingDown = true) (loader : Nat) :
    cache.Rests (cache.crash loader) := by
  simp only [crash, if_pos closing]
  split <;> exact ⟨.refl _, rfl, rfl⟩

theorem rests_post (cache : SharedCache) (loader : Nat) : cache.Rests (cache.post loader) := by
  simp only [post]
  split
  · split <;> exact ⟨.refl _, rfl, rfl⟩
  · exact .refl cache

theorem rests_apply (closing : cache.state.shuttingDown = true) (thread : Nat) :
    cache.Rests (cache.apply thread) := by
  simp only [apply, (CacheState.refuses closing).complete]
  split
  · exact .refl cache
  · exact ⟨.refl _, rfl, rfl⟩

theorem rests_request (closing : cache.state.shuttingDown = true) (key : ThumbnailKey)
    (generator : Generator) (subscriber : SubscriberId) :
    cache.Rests (cache.request key generator subscriber) := by
  simp only [request, (CacheState.refuses closing).request]
  refine ⟨.refl _, ?_, rfl⟩
  -- The key names the same record before and after, or none.
  simp only [recordMade]
  cases named : cache.state.store.find? key <;> simp

theorem rests_perform (closing : cache.state.shuttingDown = true) (move : Move)
    (begun : ∀ key, move ≠ .recreate key) : cache.Rests (cache.perform move) := by
  have refused := CacheState.refuses closing
  cases move with
  | request key generator subscriber => exact rests_request closing key generator subscriber
  | peek key =>
      simp only [perform, underLock, CacheState.perform, refused.peek]
      exact .refl cache
  | recreate key => exact absurd rfl (begun key)
  | changeDirectory directory =>
      rcases cache.state.changeDirectory_snd directory with ⟨kept, clock, changed⟩
      simp only [perform, underLock, CacheState.perform, changed]
      exact ⟨rfl, rfl, rfl⟩
  | start =>
      simp only [perform, start]
      split <;> exact ⟨.refl _, rfl, rfl⟩
  | startFails =>
      simp only [perform, startFails]
      split <;> exact ⟨rfl, rfl, rfl⟩
  | notify =>
      simp only [perform, notify]
      split <;> exact ⟨.refl _, rfl, rfl⟩
  | look loader => exact rests_look closing loader
  | rouse loader =>
      simp only [perform, rouse]
      split <;> exact ⟨.refl _, rfl, rfl⟩
  | load loader outcome =>
      simp only [perform, load]
      split <;> exact ⟨.refl _, rfl, rfl⟩
  | post loader => exact rests_post cache loader
  | notified loader =>
      simp only [perform, notified]
      split <;> exact ⟨.refl _, rfl, rfl⟩
  | crash loader => exact rests_crash closing loader
  | handBack loader =>
      simp only [perform, handBack]
      split <;> exact ⟨rfl, rfl, rfl⟩
  | receive thread =>
      simp only [perform, receive]
      split <;> exact ⟨.refl _, rfl, rfl⟩
  | apply thread => exact rests_apply closing thread
  | shutDown =>
      refine ⟨?_, rfl, rfl⟩
      change cache.state.Rests cache.state.shutDown
      rw [CacheState.shutDown, ← closing]
      exact .refl _
  | close =>
      simp only [perform, close, if_pos closing]
      exact ⟨.refl _, rfl, rfl⟩

theorem rests_after (closing : cache.state.shuttingDown = true) (moves : List Move)
    (begun : ∀ key, Move.recreate key ∉ moves) : cache.Rests (cache.after moves) := by
  induction moves using List.reverseRecOn with
  | nil => exact .refl cache
  | append_singleton moves move ih =>
      have earlier := ih fun key member => begun key (List.mem_append_left _ member)
      rw [after_concat]
      refine earlier.trans (rests_perform (earlier.state.closing closing) move ?_)
      rintro key rfl
      exact begun key (by simp)

end SharedCache

variable [ImageLibrary]

/-- What is left of a cache from some state on. -/
structure CacheState.Absorbs (state : CacheState) : Prop where
  /-- Whatever is under way, a session rests from then on and refuses all that is asked of it. -/
  sessions : ∀ (setup : Setup) (session : Session), session.state = state →
    ∀ turns, session.Rests (session.after setup turns) ∧
      (session.after setup turns).Refuses setup
  /-- So do threads that share the cache, if no recreation comes to its last step. -/
  threads : ∀ cache : SharedCache, cache.state = state →
    ∀ moves, (∀ key, Move.recreate key ∉ moves) →
      cache.Rests (cache.after moves) ∧ (cache.after moves).state.Refuses

/-- A cache that shuts down does nothing any more, whatever state it was in. -/
theorem CacheState.shutDown_absorbs (state : CacheState) : state.shutDown.Absorbs := by
  refine ⟨?_, ?_⟩
  · intro setup session stateEq turns
    have closing : session.state.shuttingDown = true := by rw [stateEq]; rfl
    have rests := Session.rests_after setup closing turns
    exact ⟨rests, Session.refuses setup (rests.state.closing closing)⟩
  · intro cache stateEq moves begun
    have closing : cache.state.shuttingDown = true := by rw [stateEq]; rfl
    have rests := SharedCache.rests_after closing moves begun
    exact ⟨rests, CacheState.refuses (rests.state.closing closing)⟩

end Thumbnails
