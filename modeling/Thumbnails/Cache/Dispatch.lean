import Thumbnails.Cache.Handlers
import Thumbnails.Cache.State

/-!
# Dispatching results

The loader posts its results to an inbox, and the owner of the cache takes them out in the order in
which they were posted. Each result is applied to the state, and then the subscribers it concerns
are told. A result that no longer applies is taken out all the same.
-/

namespace Thumbnails

/-- Results that were posted and not yet taken out. A closed inbox takes no more of them. -/
structure Inbox where
  results : List LoadResult
  closed : Bool
  deriving DecidableEq, Repr

namespace Inbox

def empty : Inbox :=
  ⟨[], false⟩

/-- The inbox after a result was posted, unless it is closed. -/
def post (inbox : Inbox) (result : LoadResult) : Option Inbox :=
  if inbox.closed then none else some { inbox with results := inbox.results ++ [result] }

def close (inbox : Inbox) : Bool × Inbox :=
  (!inbox.closed, { inbox with closed := true })

end Inbox

namespace CacheState

def completeAll (state : CacheState) : List LoadResult → List Completion × CacheState
  | [] => ([], state)
  | result :: rest =>
    let (completion, completed) := state.complete result
    let (completions, final) := completed.completeAll rest
    (completion.toList ++ completions, final)

end CacheState

/-- A cache as its owner sees it, with an inbox and handlers. -/
structure Desk where
  state : CacheState
  inbox : Inbox
  handlers : Handlers

namespace Desk

def dispatch (desk : Desk) (count : Nat) : List Delivery × Desk :=
  let (completions, state) := desk.state.completeAll (desk.inbox.results.take count)
  let inbox := { desk.inbox with results := desk.inbox.results.drop count }
  (completions.flatMap desk.handlers.deliveries, { desk with state, inbox })

end Desk

end Thumbnails
