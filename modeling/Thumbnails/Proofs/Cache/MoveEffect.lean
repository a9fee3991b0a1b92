import Thumbnails.Proofs.Cache.Interleaving
import Thumbnails.Proofs.Cache.Lifecycle
import Thumbnails.Proofs.Cache.Tidy

/-!
# The effect of a move

`SharedCache.Effect` lists all that a move of a thread can do to a cache: to its state, which is the
effect of a call or nothing, and to what the threads have in hand. The list leaves nothing out. A
loader may break down wherever foreign code is called outside of a job, and if it had a record in
hand then, the record is stranded.

An invariant of all interleavings needs only to be checked against the list.
-/

namespace Thumbnails

namespace SharedCache

/-- What a loader had in hand when it broke down in a move. -/
def strandedBy (cache : SharedCache) : Move → List RecordId
  | .crash loader =>
    match cache.loaders[loader]? with
    | some .looking =>
      if cache.state.shuttingDown then []
      else
        match cache.state.nextJob.1 with
        | some (.load job) => [job.id]
        | _ => []
    | some (.holding (.load job)) => [job.id]
    | _ => []
  | _ => []

/-- What loaders had in hand when they broke down. -/
def stranded (cache : SharedCache) : List Move → List RecordId
  | [] => []
  | move :: moves => cache.strandedBy move ++ (cache.perform move).stranded moves

theorem stranded_append (cache : SharedCache) (moves more : List Move) :
    cache.stranded (moves ++ more) = cache.stranded moves ++ (cache.after moves).stranded more := by
  induction moves generalizing cache with
  | nil => rfl
  | cons move moves ih =>
      rw [List.cons_append, stranded, ih, stranded, List.append_assoc]
      rfl

theorem stranded_concat (cache : SharedCache) (moves : List Move) (move : Move) :
    cache.stranded (moves ++ [move]) =
      cache.stranded moves ++ (cache.after moves).strandedBy move := by
  rw [stranded_append, stranded, stranded, List.append_nil]

/-- What a move can do to a cache whose store represents a view, with what is stranded by it. -/
inductive Effect (cache : SharedCache) (view : StoreView) :
    List RecordId → SharedCache → StoreView → Prop where
  | nothing : Effect cache view [] cache view
  | requested {key : ThumbnailKey} {generator : Generator} {subscriber : SubscriberId}
      {status : RequestStatus} {wake : Wake} {state : CacheState} {next : StoreView}
      {created : List RecordId}
      (effect : cache.state.Effect view (.request key generator subscriber) (.status status wake)
        state next) :
      Effect cache view []
        { cache with
          state
          starts := if wake = .start then cache.starts + 1 else cache.starts
          notices := if wake = .notify then cache.notices + 1 else cache.notices
          created } next
  | called {call : CacheCall} {answer : CacheAnswer} {state : CacheState} {next : StoreView}
      (effect : cache.state.Effect view call answer state next) (untaken : answer.taken? = none)
      (unsettled : call.settled? answer = none)
      (unasked : ∀ key generator subscriber, call ≠ .request key generator subscriber)
      (kept : call ≠ .loaderLost) : Effect cache view [] { cache with state } next
  | started {starts : Nat} (claimed : cache.starts = starts + 1) :
      Effect cache view [] { cache with starts, loaders := cache.loaders ++ [.looking] } view
  | startFailed {starts : Nat} (claimed : cache.starts = starts + 1) :
      Effect cache view [] { cache with starts, state := cache.state.loaderLost } view
  | notified {notices : Nat} (due : cache.notices = notices + 1) :
      Effect cache view []
        { cache with notices, loaders := cache.loaders.map LoaderPhase.roused } view
  | stopped {loader : Nat} {phase : LoaderPhase} (found : cache.loaders[loader]? = some phase)
      (closing : cache.state.shuttingDown = true ∨ cache.inbox.closed = true) :
      Effect cache view [] (cache.dropLoader loader) view
  | slept {loader : Nat} (found : cache.loaders[loader]? = some .looking)
      (idle : ∀ id, view.statusOf? id ≠ some .queued) :
      Effect cache view [] (cache.setPhase loader .asleep) view
  | took {loader : Nat} {dequeued : Dequeued} {state : CacheState} {next : StoreView}
      (found : cache.loaders[loader]? = some .looking)
      (effect : cache.state.Effect view .nextJob (.taken (some dequeued)) state next) :
      Effect cache view []
        ({ cache with state, dequeued := cache.dequeued ++ [dequeued.id] }.setPhase loader
          (.holding dequeued)) next
  | wentOn {loader : Nat} {old new : LoaderPhase} (found : cache.loaders[loader]? = some old)
      (hand : new.hand = old.hand) (awake : new ≠ .asleep) :
      Effect cache view [] (cache.setPhase loader new) view
  | posted {loader : Nat} {result : LoadResult}
      (found : cache.loaders[loader]? = some (.finished result)) :
      Effect cache view []
        ({ cache with
          inbox := { cache.inbox with results := cache.inbox.results ++ [result] } }.setPhase
            loader .notifying) view
  | brokeDownTaking {loader : Nat} {job : LoadJob} {state : CacheState} {next : StoreView}
      (found : cache.loaders[loader]? = some .looking)
      (effect : cache.state.Effect view .nextJob (.taken (some (.load job))) state next) :
      Effect cache view [job.id]
        ({ cache with state, dequeued := cache.dequeued ++ [job.id] }.setPhase loader .dying) next
  | brokeDownLoading {loader : Nat} {job : LoadJob}
      (found : cache.loaders[loader]? = some (.holding (.load job))) :
      Effect cache view [job.id] (cache.setPhase loader .dying) view
  | handedBack {loader : Nat} (found : cache.loaders[loader]? = some .dying) :
      Effect cache view [] ({ cache with state := cache.state.loaderLost }.dropLoader loader) view
  | received {thread : Nat} {result : LoadResult} {results : List LoadResult}
      (resultsEq : cache.inbox.results = result :: results) :
      Effect cache view []
        { cache with
          inbox := { cache.inbox with results }
          received := cache.received ++ [⟨thread, result⟩]
          drainers := cache.drainers ++ [thread] } view
  | applied {receipt : Receipt} {front back : List Receipt} {completion : Option Completion}
      {state : CacheState} {next : StoreView}
      (receivedEq : cache.received = front ++ receipt :: back)
      (effect : cache.state.Effect view (.complete receipt.result) (.completed completion) state
        next) :
      Effect cache view [] (cache.settle (front ++ back) receipt.result state) next
  | closed (closing : cache.state.shuttingDown = true) :
      Effect cache view [] { cache with inbox := cache.inbox.close.2 } view

/-- What a move gives is one of its effects. -/
def HasEffect (cache : SharedCache) (view : StoreView) (lost : List RecordId)
    (after : SharedCache) : Prop :=
  ∃ next, cache.Effect view lost after next ∧ after.state.Tidy next

section Moves

variable {cache : SharedCache} {view : StoreView}

theorem hasEffect_request (tidy : cache.state.Tidy view) (key : ThumbnailKey)
    (generator : Generator) (subscriber : SubscriberId) :
    cache.HasEffect view [] (cache.request key generator subscriber) := by
  rcases tidy.perform (.request key generator subscriber) with ⟨next, effect, nextTidy⟩
  exact ⟨next, .requested effect, nextTidy⟩

theorem hasEffect_underLock (tidy : cache.state.Tidy view) {call : CacheCall}
    (untaken : (cache.state.perform call).1.taken? = none)
    (unsettled : call.settled? (cache.state.perform call).1 = none)
    (unasked : ∀ key generator subscriber, call ≠ .request key generator subscriber)
    (kept : call ≠ .loaderLost) : cache.HasEffect view [] (cache.underLock call) := by
  rcases tidy.perform call with ⟨next, effect, nextTidy⟩
  exact ⟨next, .called effect untaken unsettled unasked kept, nextTidy⟩

theorem hasEffect_start (tidy : cache.state.Tidy view) :
    cache.HasEffect view [] cache.start := by
  simp only [start]
  split
  · exact ⟨view, .nothing, tidy⟩
  · exact ⟨view, .started ‹_›, tidy⟩

theorem hasEffect_startFails (tidy : cache.state.Tidy view) :
    cache.HasEffect view [] cache.startFails := by
  simp only [startFails]
  split
  · exact ⟨view, .nothing, tidy⟩
  · exact ⟨view, .startFailed ‹_›, tidy.loaderLost⟩

theorem hasEffect_notify (tidy : cache.state.Tidy view) :
    cache.HasEffect view [] cache.notify := by
  simp only [notify]
  split
  · exact ⟨view, .nothing, tidy⟩
  · exact ⟨view, .notified ‹_›, tidy⟩

theorem hasEffect_look (tidy : cache.state.Tidy view) (loader : Nat) :
    cache.HasEffect view [] (cache.look loader) := by
  simp only [look]
  split
  · rename_i found
    split
    · rename_i closing
      exact ⟨view, .stopped found (.inl closing), tidy⟩
    · split
      · rename_i state nextJobEq
        rcases tidy.effect_nextJob nextJobEq with ⟨next, effect, nextTidy⟩
        cases effect with
        | nothingQueued idle => exact ⟨view, .slept found idle, tidy⟩
      · rename_i dequeued state nextJobEq
        rcases tidy.effect_nextJob nextJobEq with ⟨next, effect, nextTidy⟩
        exact ⟨next, .took found effect, nextTidy⟩
  · exact ⟨view, .nothing, tidy⟩

theorem hasEffect_rouse (tidy : cache.state.Tidy view) (loader : Nat) :
    cache.HasEffect view [] (cache.rouse loader) := by
  simp only [rouse]
  split
  · rename_i found
    exact ⟨view, .wentOn found rfl nofun, tidy⟩
  · exact ⟨view, .nothing, tidy⟩

theorem hasEffect_notified (tidy : cache.state.Tidy view) (loader : Nat) :
    cache.HasEffect view [] (cache.notified loader) := by
  simp only [notified]
  split
  · rename_i found
    exact ⟨view, .wentOn found rfl nofun, tidy⟩
  · exact ⟨view, .nothing, tidy⟩

theorem hasEffect_load (tidy : cache.state.Tidy view) (loader : Nat) (outcome : Outcome Image) :
    cache.HasEffect view [] (cache.load loader outcome) := by
  simp only [load]
  split
  · rename_i found
    refine ⟨view, .wentOn found ?_ nofun, tidy⟩
    simp [LoaderPhase.hand, Dequeued.result_id]
  · exact ⟨view, .nothing, tidy⟩

theorem hasEffect_post (tidy : cache.state.Tidy view) (loader : Nat) :
    cache.HasEffect view [] (cache.post loader) := by
  simp only [post]
  split
  · rename_i result found
    simp only [Inbox.post]
    by_cases closed : cache.inbox.closed = true
    · rw [if_pos closed]
      exact ⟨view, .stopped found (.inr closed), tidy⟩
    · rw [if_neg closed]
      exact ⟨view, .posted found, tidy⟩
  · exact ⟨view, .nothing, tidy⟩

theorem hasEffect_crash (tidy : cache.state.Tidy view) (loader : Nat) :
    cache.HasEffect view (cache.strandedBy (.crash loader)) (cache.crash loader) := by
  simp only [crash, strandedBy]
  cases found : cache.loaders[loader]? with
  | none => exact ⟨view, .nothing, tidy⟩
  | some phase =>
      cases phase with
      | looking =>
          simp only
          split
          · exact ⟨view, .nothing, tidy⟩
          · rcases nextJobEq : cache.state.nextJob with ⟨dequeued, state⟩
            rcases tidy.effect_nextJob nextJobEq with ⟨next, effect, nextTidy⟩
            rcases dequeued with _ | ⟨id | job⟩
            · exact ⟨view, .nothing, tidy⟩
            · exact ⟨view, .nothing, tidy⟩
            · exact ⟨next, .brokeDownTaking found effect, nextTidy⟩
      | holding dequeued =>
          cases dequeued with
          | expired id => exact ⟨view, .nothing, tidy⟩
          | load job => exact ⟨view, .brokeDownLoading found, tidy⟩
      | notifying => exact ⟨view, .wentOn found rfl nofun, tidy⟩
      | asleep => exact ⟨view, .nothing, tidy⟩
      | finished result => exact ⟨view, .nothing, tidy⟩
      | dying => exact ⟨view, .nothing, tidy⟩

theorem hasEffect_handBack (tidy : cache.state.Tidy view) (loader : Nat) :
    cache.HasEffect view [] (cache.handBack loader) := by
  simp only [handBack]
  split
  · exact ⟨view, .handedBack ‹_›, tidy.loaderLost⟩
  · exact ⟨view, .nothing, tidy⟩

theorem hasEffect_receive (tidy : cache.state.Tidy view) (thread : Nat) :
    cache.HasEffect view [] (cache.receive thread) := by
  simp only [receive]
  split
  · exact ⟨view, .received ‹_›, tidy⟩
  · exact ⟨view, .nothing, tidy⟩

theorem hasEffect_apply (tidy : cache.state.Tidy view) (thread : Nat) :
    cache.HasEffect view [] (cache.apply thread) := by
  simp only [apply]
  split
  · exact ⟨view, .nothing, tidy⟩
  · rename_i receipt found
    rcases tidy.perform (.complete receipt.result) with ⟨next, effect, nextTidy⟩
    rcases received_split found with ⟨front, back, receivedEq, _, erased⟩
    rw [erased]
    exact ⟨next, .applied receivedEq effect, nextTidy⟩

theorem hasEffect_close (tidy : cache.state.Tidy view) :
    cache.HasEffect view [] cache.close := by
  simp only [close]
  split
  · exact ⟨view, .closed ‹_›, tidy⟩
  · exact ⟨view, .nothing, tidy⟩

end Moves

/-- Every move has one of the effects, and leads to a tidy state again. -/
theorem hasEffect_perform {cache : SharedCache} {view : StoreView}
    (tidy : cache.state.Tidy view) (move : Move) :
    cache.HasEffect view (cache.strandedBy move) (cache.perform move) := by
  cases move with
  | request key generator subscriber => exact hasEffect_request tidy key generator subscriber
  | peek key => exact hasEffect_underLock tidy rfl rfl nofun nofun
  | recreate key => exact hasEffect_underLock tidy rfl rfl nofun nofun
  | changeDirectory directory => exact hasEffect_underLock tidy rfl rfl nofun nofun
  | start => exact hasEffect_start tidy
  | startFails => exact hasEffect_startFails tidy
  | notify => exact hasEffect_notify tidy
  | look loader => exact hasEffect_look tidy loader
  | rouse loader => exact hasEffect_rouse tidy loader
  | load loader outcome => exact hasEffect_load tidy loader outcome
  | post loader => exact hasEffect_post tidy loader
  | notified loader => exact hasEffect_notified tidy loader
  | crash loader => exact hasEffect_crash tidy loader
  | handBack loader => exact hasEffect_handBack tidy loader
  | receive thread => exact hasEffect_receive tidy thread
  | apply thread => exact hasEffect_apply tidy thread
  | shutDown => exact hasEffect_underLock tidy rfl rfl nofun nofun
  | close => exact hasEffect_close tidy

end SharedCache

end Thumbnails
