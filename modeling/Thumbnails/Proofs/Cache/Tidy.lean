import Thumbnails.Proofs.Cache.Effect

/-!
# Tidy states

A new cache is tidy, and every effect leads from a tidy state to a tidy one. So the state of a cache
is tidy between any two calls of any run.
-/

namespace Thumbnails

theorem StoreView.Answers.orderly {view next : StoreView} {key : ThumbnailKey}
    {status : Option RequestStatus} (answers : view.Answers key status next)
    (orderly : view.Orderly) : next.Orderly := by
  cases answers with
  | hit named present loaded pixmapEq => exact orderly.refresh present loaded
  | failed => exact orderly
  | waiting => exact orderly
  | absent => exact orderly

theorem StoreView.Answers.settled_length {view next : StoreView} {key : ThumbnailKey}
    {status : Option RequestStatus} (answers : view.Answers key status next)
    (wellFormed : view.WellFormed) (orderly : view.Orderly) :
    next.settled.length = view.settled.length := by
  cases answers with
  | hit named present loaded pixmapEq =>
      exact StoreView.settled_length_refresh (orderly.mem_settled wellFormed present loaded)
  | failed => rfl
  | waiting => rfl
  | absent => rfl

namespace CacheState

namespace Effect

variable {state after : CacheState} {view next : StoreView} {call : CacheCall}
  {answer : CacheAnswer}

theorem capacity_eq (effect : state.Effect view call answer after next) :
    after.capacity = state.capacity := by
  cases effect with
  | directoryChanged different => simp
  | expireQueued => simp
  | _ => rfl

/-- A cache that shuts down goes on to do so. -/
theorem shuttingDown (effect : state.Effect view call answer after next)
    (closing : state.shuttingDown = true) : after.shuttingDown = true := by
  cases effect with
  | directoryChanged different => simpa using closing
  | expireQueued => simpa using closing
  | shutDown => rfl
  | _ => exact closing

theorem running_before (effect : state.Effect view call answer after next)
    (running : after.shuttingDown = false) : state.shuttingDown = false := by
  cases closing : state.shuttingDown with
  | false => rfl
  | true => exact (effect.shuttingDown closing).symm.trans running

/-- Whether a loader runs is changed by requests, and by a loader that is lost. -/
theorem loaderStarted_eq (effect : state.Effect view call answer after next)
    (unasked : ∀ key generator subscriber, call ≠ .request key generator subscriber)
    (kept : call ≠ .loaderLost) : after.loaderStarted = state.loaderStarted := by
  cases effect with
  | requestJoined => exact absurd rfl (unasked _ _ _)
  | requestCreated => exact absurd rfl (unasked _ _ _)
  | loaderLost => exact absurd rfl kept
  | directoryChanged different => simp
  | expireQueued => simp
  | _ => rfl

/-- A request that is told to start a loader has claimed the start, and the only one. -/
theorem claim_eq {key : ThumbnailKey} {generator : Generator} {subscriber : SubscriberId}
    {status : RequestStatus} {wake : Wake}
    (effect : state.Effect view (.request key generator subscriber) (.status status wake) after
      next) :
    (if state.loaderStarted then 1 else 0) + (if wake = .start then 1 else 0) =
      if after.loaderStarted then 1 else 0 := by
  cases effect with
  | requestRefused => rfl
  | requestAnswered => rfl
  | requestJoined => cases started : state.loaderStarted <;> simp [wakeFor, started]
  | requestCreated =>
      cases started : state.loaderStarted
      · simp [wakeFor, started]
      · by_cases first : view.count .queued = 0 <;> simp [wakeFor, started, first]

theorem running_of_start {key : ThumbnailKey} {generator : Generator} {subscriber : SubscriberId}
    {status : RequestStatus}
    (effect : state.Effect view (.request key generator subscriber) (.status status .start) after
      next) : after.shuttingDown = false := by
  generalize answerEq : CacheAnswer.status status .start = answer at effect
  cases effect with
  | requestRefused => cases answerEq
  | requestAnswered => cases answerEq
  | requestJoined running => exact running
  | requestCreated running => exact running

theorem orderly (effect : state.Effect view call answer after next)
    (wellFormed : view.WellFormed) (orderly : view.Orderly) : next.Orderly := by
  cases effect with
  | requestAnswered running answers => exact answers.orderly orderly
  | lookup answers => exact answers.orderly orderly
  | peekAnswered running answers => exact answers.orderly orderly
  | requestJoined running named present waiting => exact orderly.join present waiting _
  | requestCreated running unnamed fresh =>
      exact orderly.insert wellFormed fresh rfl (Record.proper_created _ _ _ _)
  | jobExpired first present queued stale => exact orderly.take wellFormed present queued
  | jobStarted first present queued timely => exact orderly.take wellFormed present queued
  | resultLanded running present inProgress =>
      have roomy := orderly.makeRoom wellFormed state.capacity
      exact roomy.land (wellFormed.makeRoom state.capacity) _ _
  | resultExpired running present inProgress => exact orderly.remove wellFormed _
  | resultFailed running present inProgress failed =>
      exact orderly.fail wellFormed present (by simp [inProgress]) _
  | evictExcess => exact orderly.makeRoom wellFormed _
  | forgotten named present finished => exact orderly.remove wellFormed _
  | _ => exact orderly

theorem settled_le (effect : state.Effect view call answer after next)
    (wellFormed : view.WellFormed) (orderly : view.Orderly) (positive : 0 < state.capacity)
    (fits : view.settled.length ≤ state.capacity) : next.settled.length ≤ state.capacity := by
  cases effect with
  | requestAnswered running answers => rwa [answers.settled_length wellFormed orderly]
  | lookup answers => rwa [answers.settled_length wellFormed orderly]
  | peekAnswered running answers => rwa [answers.settled_length wellFormed orderly]
  | resultLanded running present inProgress =>
      have roomy := StoreView.settled_length_makeRoom_lt wellFormed positive fits
      simp only [StoreView.land, List.length_append, List.length_singleton]
      omega
  | resultExpired running present inProgress =>
      exact Nat.le_trans (view.settled_length_remove_le _) fits
  | evictExcess =>
      exact Nat.le_of_lt (StoreView.settled_length_makeRoom_lt wellFormed positive fits)
  | forgotten named present finished => exact Nat.le_trans (view.settled_length_remove_le _) fits
  | _ => exact fits

end Effect

namespace Tidy

variable {state : CacheState} {view : StoreView}

theorem new (config : Config) (directory : Path) :
    (CacheState.new config directory).Tidy StoreView.empty := by
  refine ⟨Store.Represents.empty, StoreView.Orderly.empty, ?_, Nat.zero_le _⟩
  exact Nat.le_max_right _ _

/-- A call on a tidy state has an effect, and the state after it is tidy. -/
theorem perform (tidy : state.Tidy view) (call : CacheCall) : ∃ next,
    state.Effect view call (state.perform call).1 (state.perform call).2 next ∧
      (state.perform call).2.Tidy next := by
  rcases tidy.effect call with ⟨next, effect, represents⟩
  refine ⟨next, effect, represents, effect.orderly tidy.wellFormed tidy.orderly, ?_, ?_⟩
  · rw [effect.capacity_eq]
    exact tidy.capacity_pos
  · rw [effect.capacity_eq]
    exact effect.settled_le tidy.wellFormed tidy.orderly tidy.capacity_pos tidy.settled_le

theorem loaderLost (tidy : state.Tidy view) : state.loaderLost.Tidy view :=
  ⟨tidy.represents, tidy.orderly, tidy.capacity_pos, tidy.settled_le⟩

theorem effect_request (tidy : state.Tidy view) {key : ThumbnailKey} {generator : Generator}
    {subscriber : SubscriberId} {status : RequestStatus} {wake : Wake} {after : CacheState}
    (requestEq : state.request key generator subscriber = (status, wake, after)) : ∃ next,
      state.Effect view (.request key generator subscriber) (.status status wake) after next ∧
        after.Tidy next := by
  have performEq : state.perform (.request key generator subscriber) =
      (.status status wake, after) := by simp [CacheState.perform, requestEq]
  rcases tidy.perform (.request key generator subscriber) with ⟨next, effect, nextTidy⟩
  rw [performEq] at effect nextTidy
  exact ⟨next, effect, nextTidy⟩

theorem effect_nextJob (tidy : state.Tidy view) {dequeued : Option Dequeued} {after : CacheState}
    (nextJobEq : state.nextJob = (dequeued, after)) : ∃ next,
      state.Effect view .nextJob (.taken dequeued) after next ∧ after.Tidy next := by
  have performEq : state.perform .nextJob = (.taken dequeued, after) := by
    simp [CacheState.perform, nextJobEq]
  rcases tidy.perform .nextJob with ⟨next, effect, nextTidy⟩
  rw [performEq] at effect nextTidy
  exact ⟨next, effect, nextTidy⟩

end Tidy

/-- The state of a cache is tidy after any calls. -/
theorem tidy_after (config : Config) (directory : Path) (calls : List CacheCall) :
    ∃ view, ((new config directory).after calls).Tidy view := by
  induction calls using after_induction with
  | start => exact ⟨_, Tidy.new config directory⟩
  | step calls call ih =>
      rcases ih with ⟨view, tidy⟩
      rcases tidy.perform call with ⟨next, _, nextTidy⟩
      exact ⟨next, nextTidy⟩

theorem capacity_after (config : Config) (directory : Path) (calls : List CacheCall) :
    ((new config directory).after calls).capacity = max config.maxCachedPixmaps.toNat 1 := by
  induction calls using after_induction with
  | start => rfl
  | step calls call ih =>
      rcases tidy_after config directory calls with ⟨view, tidy⟩
      rcases tidy.perform call with ⟨next, effect, _⟩
      rw [effect.capacity_eq, ih]

end CacheState

end Thumbnails
