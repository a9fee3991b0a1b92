import Thumbnails.Proofs.Cache.InFlight
import Thumbnails.Proofs.Cache.MoveEffect

/-!
# Wake-ups

A thread that queues a record tells the loader only if nothing was queued before, and it does so
some time later, when the lock is no longer held. `SharedCache.Attended` says that no record waits
in vain: if one is queued, the loader is awake, or there is a thread that is yet to start or to
notify it. Breakdowns make no difference to records that are still queued.

Two invariants carry this. Starting a loader is taken on by one thread at a time, and handed back
when the loader is lost. A loader that is asleep found nothing queued, so the first record that was
queued since then has left somebody with a notice.
-/

namespace Thumbnails

namespace CacheState

variable {state after : CacheState} {view next : StoreView} {call : CacheCall}
  {answer : CacheAnswer} {id : RecordId}

/-- Only requests queue records. -/
theorem Effect.queued_before (effect : state.Effect view call answer after next)
    (tidy : state.Tidy view)
    (unasked : ∀ key generator subscriber, call ≠ .request key generator subscriber)
    (queued : next.statusOf? id = some .queued) : view.statusOf? id = some .queued := by
  have balance := effect.queued_balance tidy.wellFormed tidy.orderly id
  rw [if_neg (SharedCache.not_made effect tidy unasked), if_pos queued] at balance
  by_contra unqueued
  rw [if_neg unqueued] at balance
  omega

/-- The thread that queues the first record is told to notify the loader, if there is one. -/
theorem Effect.notify_of_first {key : ThumbnailKey} {generator : Generator}
    {subscriber : SubscriberId} {status : RequestStatus} {wake : Wake}
    (effect : state.Effect view (.request key generator subscriber) (.status status wake) after
      next) (started : state.loaderStarted = true)
    (idle : ∀ id, view.statusOf? id ≠ some .queued)
    (queued : next.statusOf? id = some .queued) : wake = .notify := by
  cases effect with
  | requestRefused closing => exact absurd queued (idle id)
  | requestAnswered running answers =>
      rw [StoreView.statusOf?, answers.records_eq] at queued
      exact absurd queued (idle id)
  | requestJoined running named present waiting =>
      rename_i joined record store
      have statusEq : (record.joined subscriber).status = record.status := rfl
      have kept : (view.join joined record subscriber).statusOf? id = view.statusOf? id :=
        StoreView.statusOf?_put_same present statusEq id
      exact absurd (kept.symm.trans queued) (idle id)
  | requestCreated running unnamed fresh =>
      have empty : view.count .queued = 0 := by
        apply List.countP_eq_zero.mpr
        intro other _
        simpa using idle other
      simp [wakeFor, started, empty]

/-- The number of loaders that there should be. -/
def claims (state : CacheState) : Nat :=
  if state.loaderStarted then 1 else 0

theorem claims_le_one (state : CacheState) : state.claims ≤ 1 := by
  rw [claims]
  split <;> omega

theorem Effect.claims_eq (effect : state.Effect view call answer after next)
    (unasked : ∀ key generator subscriber, call ≠ .request key generator subscriber)
    (kept : call ≠ .loaderLost) : after.claims = state.claims := by
  rw [claims, effect.loaderStarted_eq unasked kept, claims]

end CacheState

namespace SharedCache

variable {cache after : SharedCache} {view next : StoreView} {lost : List RecordId}

/-- The number of loaders, with those that are yet to be started. -/
def manned (cache : SharedCache) : Nat :=
  cache.starts + cache.loaders.length

theorem manned_dropLoader {loader : Nat} {phase : LoaderPhase}
    (found : cache.loaders[loader]? = some phase) :
    (cache.dropLoader loader).manned + 1 = cache.manned := by
  have inside := (List.getElem?_eq_some_iff.mp found).1
  simp only [manned, dropLoader, List.length_eraseIdx, if_pos inside]
  omega

namespace Effect

theorem running_before (effect : cache.Effect view lost after next)
    (running : after.state.shuttingDown = false) : cache.state.shuttingDown = false := by
  cases effect with
  | requested effect => exact effect.running_before running
  | called effect => exact effect.running_before running
  | took found effect => exact effect.running_before running
  | brokeDownTaking found effect => exact effect.running_before running
  | applied receivedEq effect => exact effect.running_before running
  | _ => exact running

theorem unclosed (effect : cache.Effect view lost after next)
    (running : cache.state.shuttingDown = false) (unclosed : cache.inbox.closed = false) :
    after.inbox.closed = false := by
  cases effect with
  | closed closing => cases closing.symm.trans running
  | _ => exact unclosed

/-- Loaders come and go with their claims, unless one stops because the cache is done with. -/
theorem manned_balance (effect : cache.Effect view lost after next)
    (once : cache.manned ≤ cache.state.claims) :
    after.manned + cache.state.claims = cache.manned + after.state.claims ∨
      (cache.state.shuttingDown = true ∨ cache.inbox.closed = true) ∧
        after.manned + 1 = cache.manned ∧ after.state.claims = cache.state.claims := by
  have single := cache.state.claims_le_one
  cases effect with
  | requested effect =>
      left
      rename_i wake _ _
      have claimed := effect.claim_eq
      by_cases start : wake = .start
      · simp only [manned, CacheState.claims, if_pos start] at claimed ⊢
        omega
      · simp only [manned, CacheState.claims, if_neg start] at claimed ⊢
        omega
  | called effect untaken unsettled unasked kept =>
      left
      rw [effect.claims_eq unasked kept]
      rfl
  | started claimed =>
      left
      simp only [manned, List.length_append, List.length_singleton]
      omega
  | startFailed claimed =>
      left
      have handedBack : cache.state.loaderLost.claims = 0 := rfl
      simp only [manned, handedBack] at once ⊢
      omega
  | stopped found closing => exact .inr ⟨closing, manned_dropLoader found, rfl⟩
  | took found effect =>
      left
      simp only [manned, setPhase, List.length_set, effect.claims_eq (by simp) (by simp)]
  | brokeDownTaking found effect =>
      left
      simp only [manned, setPhase, List.length_set, effect.claims_eq (by simp) (by simp)]
  | handedBack found =>
      left
      have handedBack : cache.state.loaderLost.claims = 0 := rfl
      have dropped := manned_dropLoader found
      change (cache.dropLoader _).manned + _ = _ + cache.state.loaderLost.claims
      omega
  | applied receivedEq effect =>
      left
      simp only [manned, settle, effect.claims_eq (by simp) (by simp)]
  | _ => exact .inl (by simp [manned, setPhase])

end Effect

/-- What is said of sleeping loaders, until the cache begins to shut down. -/
structure Watched (cache : SharedCache) (view : StoreView) : Prop where
  unclosed : cache.inbox.closed = false
  manned : cache.manned = cache.state.claims
  noticed : .asleep ∈ cache.loaders → ∀ id, view.statusOf? id = some .queued → 0 < cache.notices

theorem asleep_of_set {loaders : List LoaderPhase} {loader : Nat} {phase : LoaderPhase}
    (asleep : .asleep ∈ loaders.set loader phase) (awake : phase ≠ .asleep) :
    .asleep ∈ loaders := by
  rcases List.mem_or_eq_of_mem_set asleep with old | new
  · exact old
  · exact absurd new.symm awake

theorem Watched.started (watched : cache.Watched view) {phase : LoaderPhase}
    (present : phase ∈ cache.loaders) : cache.state.loaderStarted = true := by
  have claims := watched.manned
  have positive := List.length_pos_of_mem present
  rw [SharedCache.manned, CacheState.claims] at claims
  by_contra unclaimed
  rw [if_neg unclaimed] at claims
  omega

/-- The first record that is queued while the loader sleeps leaves a notice. -/
theorem Watched.noticed_after (watched : cache.Watched view)
    (effect : cache.Effect view lost after next) (tidy : cache.state.Tidy view)
    (running : cache.state.shuttingDown = false) (asleep : .asleep ∈ after.loaders)
    {id : RecordId} (queued : next.statusOf? id = some .queued) : 0 < after.notices := by
  cases effect with
  | requested effect =>
      by_cases idle : ∀ id, view.statusOf? id ≠ some .queued
      · have first := effect.notify_of_first (watched.started asleep) idle queued
        simp only [if_pos first]
        omega
      · rcases not_forall_not.mp idle with ⟨other, otherQueued⟩
        have noticed := watched.noticed asleep other otherQueued
        simp only
        split <;> omega
  | called effect untaken unsettled unasked kept =>
      exact watched.noticed asleep id (effect.queued_before tidy unasked queued)
  | started claimed =>
      rcases List.mem_append.mp asleep with old | new
      · exact watched.noticed old id queued
      · cases List.mem_singleton.mp new
  | notified due =>
      rcases List.mem_map.mp asleep with ⟨phase, _, roused⟩
      cases phase <;> cases roused
  | stopped found closing =>
      rcases closing with closing | closed
      · cases closing.symm.trans running
      · cases closed.symm.trans watched.unclosed
  | slept found idle => exact absurd queued (idle id)
  | took found effect =>
      have unqueued := effect.queued_before tidy nofun queued
      exact watched.noticed (asleep_of_set asleep nofun) id unqueued
  | wentOn found hand awake =>
      exact watched.noticed (asleep_of_set asleep awake) id queued
  | posted found => exact watched.noticed (asleep_of_set asleep nofun) id queued
  | brokeDownTaking found effect =>
      have unqueued := effect.queued_before tidy nofun queued
      exact watched.noticed (asleep_of_set asleep nofun) id unqueued
  | brokeDownLoading found => exact watched.noticed (asleep_of_set asleep nofun) id queued
  | handedBack found => exact watched.noticed (List.mem_of_mem_eraseIdx asleep) id queued
  | applied receivedEq effect =>
      exact watched.noticed asleep id (effect.queued_before tidy nofun queued)
  | _ => exact watched.noticed asleep id queued

theorem Watched.step (watched : cache.Watched view)
    (effect : cache.Effect view lost after next) (tidy : cache.state.Tidy view)
    (running : cache.state.shuttingDown = false) : after.Watched next where
  unclosed := effect.unclosed running watched.unclosed
  manned := by
    have claims := watched.manned
    rcases effect.manned_balance (Nat.le_of_eq claims) with balance | ⟨closing | closed, _⟩
    · omega
    · cases closing.symm.trans running
    · cases closed.symm.trans watched.unclosed
  noticed := by
    intro asleep id queued
    exact watched.noticed_after effect tidy running asleep queued

/-- The state of a shared cache is tidy after any moves, and as long as it does not shut down its
loaders are watched. -/
theorem watched_after (config : Config) (directory : Path) (moves : List Move) : ∃ view,
    ((new config directory).after moves).state.Tidy view ∧
      ((new config directory).after moves).manned ≤
        ((new config directory).after moves).state.claims ∧
      (((new config directory).after moves).state.shuttingDown = false →
        ((new config directory).after moves).Watched view) := by
  induction moves using List.reverseRecOn with
  | nil =>
      refine ⟨_, CacheState.Tidy.new config directory, Nat.le_refl _, fun _ => ?_⟩
      exact ⟨rfl, rfl, nofun⟩
  | append_singleton moves move ih =>
      rcases ih with ⟨view, tidy, once, watched⟩
      rcases hasEffect_perform tidy move with ⟨next, effect, nextTidy⟩
      rw [after_concat]
      refine ⟨next, nextTidy, ?_, fun running => ?_⟩
      · rcases effect.manned_balance once with balance | ⟨_, fewer, claimsEq⟩
        · omega
        · omega
      · have wasRunning := effect.running_before running
        exact (watched wasRunning).step effect tidy wasRunning

/-- No record that is queued is left without somebody to look after it. -/
structure Attended (cache : SharedCache) : Prop where
  /-- There is never more than one loader, or one thread that is yet to start it. -/
  single : cache.starts + cache.loaders.length ≤ 1
  wakes : cache.state.shuttingDown = false → cache.state.loaderStarted = true →
    (∃ id, cache.state.store.statusOf? id = some .queued) →
      (∃ phase ∈ cache.loaders, phase ≠ .asleep) ∨ 0 < cache.starts ∨ 0 < cache.notices

/-- However the moves of threads are interleaved and loaders break down, no wake-up is lost. -/
theorem attended_after (config : Config) (directory : Path) (moves : List Move) :
    ((new config directory).after moves).Attended := by
  rcases watched_after config directory moves with ⟨view, tidy, once, watched⟩
  generalize (new config directory).after moves = cache at tidy once watched
  refine ⟨Nat.le_trans once cache.state.claims_le_one, ?_⟩
  rintro running started ⟨id, queued⟩
  have watched := watched running
  rw [tidy.statusOf?_eq] at queued
  by_cases asleep : .asleep ∈ cache.loaders
  · exact .inr (.inr (watched.noticed asleep id queued))
  · have claims := watched.manned
    rw [manned, CacheState.claims, if_pos started] at claims
    rcases loadersEq : cache.loaders with _ | ⟨phase, rest⟩
    · right
      left
      rw [loadersEq, List.length_nil] at claims
      omega
    · left
      refine ⟨phase, List.mem_cons_self, ?_⟩
      rintro rfl
      exact asleep (by simp [loadersEq])

end SharedCache

end Thumbnails
