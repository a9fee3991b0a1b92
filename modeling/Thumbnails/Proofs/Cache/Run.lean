import Mathlib.Data.List.Induction
import Thumbnails.Cache.State

/-!
# Runs of a cache

A cache is driven by calls. A call is carried out under the lock, so a run of a cache is a list of
calls, and every list is a run: the calls that make no sense in a state change nothing. Threads
that use one cache only decide on the order.

The history of a run keeps for each call the state that it met, from which its answer and the state
after it can be found.
-/

namespace Thumbnails

/-- What can be done to the state of a cache under its lock. -/
inductive CacheCall where
  | request (key : ThumbnailKey) (generator : Generator) (subscriber : SubscriberId)
  | lookup (key : ThumbnailKey)
  | peek (key : ThumbnailKey)
  | nextJob
  | complete (result : LoadResult)
  | changeDirectory (directory : Path)
  | expireQueued
  | evictExcess
  | forgetFinished (key : ThumbnailKey)
  | loaderLost
  | shutDown

inductive CacheAnswer where
  | status (status : RequestStatus) (wake : Wake)
  | found (status : Option RequestStatus)
  | shown (status : RequestStatus)
  | taken (dequeued : Option Dequeued)
  | completed (completion : Option Completion)
  | flag (value : Bool)
  | nothing

/-- A call and the state that it met. -/
structure CacheEvent where
  before : CacheState
  call : CacheCall

namespace CacheState

def perform (state : CacheState) : CacheCall → CacheAnswer × CacheState
  | .request key generator subscriber =>
    let (status, wake, next) := state.request key generator subscriber
    (.status status wake, next)
  | .lookup key =>
    let (status, next) := state.lookup key
    (.found status, next)
  | .peek key =>
    let (status, next) := state.peek key
    (.shown status, next)
  | .nextJob =>
    let (dequeued, next) := state.nextJob
    (.taken dequeued, next)
  | .complete result =>
    let (completion, next) := state.complete result
    (.completed completion, next)
  | .changeDirectory directory =>
    let (changed, next) := state.changeDirectory directory
    (.flag changed, next)
  | .expireQueued => (.nothing, state.expireQueued)
  | .evictExcess => (.nothing, state.evictExcess)
  | .forgetFinished key =>
    let (forgotten, next) := state.forgetFinished key
    (.flag forgotten, next)
  | .loaderLost => (.nothing, state.loaderLost)
  | .shutDown => (.nothing, state.shutDown)

def after (state : CacheState) (calls : List CacheCall) : CacheState :=
  calls.foldl (fun current call => (current.perform call).2) state

/-- What happened during some calls. -/
def history (state : CacheState) : List CacheCall → List CacheEvent
  | [] => []
  | call :: calls => ⟨state, call⟩ :: (state.perform call).2.history calls

theorem after_concat (state : CacheState) (calls : List CacheCall) (call : CacheCall) :
    state.after (calls ++ [call]) = ((state.after calls).perform call).2 := by
  simp [after]

theorem history_concat (state : CacheState) (calls : List CacheCall) (call : CacheCall) :
    state.history (calls ++ [call]) = state.history calls ++ [⟨state.after calls, call⟩] := by
  induction calls generalizing state with
  | nil => rfl
  | cons first rest ih =>
      simp only [List.cons_append, history, ih]
      rfl

/-- What holds at first, and is kept by every call, holds after every run. -/
theorem after_induction {motive : List CacheCall → CacheState → Prop} {state : CacheState}
    (start : motive [] state)
    (step : ∀ calls call, motive calls (state.after calls) →
      motive (calls ++ [call]) ((state.after calls).perform call).2) (calls : List CacheCall) :
    motive calls (state.after calls) := by
  induction calls using List.reverseRecOn with
  | nil => exact start
  | append_singleton calls call ih =>
      rw [after_concat]
      exact step calls call ih

/-- The first page of a file whose name is a letter, for runs that are spelled out. -/
def letterPage (letter : UInt8) : ThumbnailKey :=
  ThumbnailKey.of ⟨[letter]⟩ 0 ""

end CacheState

namespace CacheEvent

def answer (event : CacheEvent) : CacheAnswer :=
  (event.before.perform event.call).1

def after (event : CacheEvent) : CacheState :=
  (event.before.perform event.call).2

end CacheEvent

/-- An event of a run cuts the run in two. -/
theorem CacheState.calls_of_history {state : CacheState} {calls : List CacheCall}
    {front : List CacheEvent} {event : CacheEvent} {rest : List CacheEvent}
    (historyEq : state.history calls = front ++ event :: rest) :
    ∃ earlier later, state.history earlier = front ∧ state.after earlier = event.before ∧
      event.after.history later = rest ∧ event.after.after later = state.after calls := by
  induction front generalizing state calls with
  | nil =>
      cases calls with
      | nil => cases historyEq
      | cons call calls =>
          rw [history, List.nil_append] at historyEq
          cases historyEq
          exact ⟨[], calls, rfl, rfl, rfl, rfl⟩
  | cons first front ih =>
      cases calls with
      | nil => cases historyEq
      | cons call calls =>
          rw [history, List.cons_append, List.cons_eq_cons] at historyEq
          rcases historyEq with ⟨rfl, tailEq⟩
          rcases ih tailEq with ⟨earlier, later, frontEq, beforeEq, restEq, afterEq⟩
          refine ⟨call :: earlier, later, ?_, beforeEq, restEq, afterEq⟩
          rw [history, frontEq]

end Thumbnails
