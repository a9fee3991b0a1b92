import Thumbnails.Cache.Result

/-!
# Handlers

Subscribers are handlers that somebody else owns. The cache knows them by number only, so a handler
that was dropped in the meantime is skipped. One that is dropped while it is being called lives on
until that call has come to its end. A name that is used again gets another number.
-/

namespace Thumbnails

/-- The handlers that are alive, by name. -/
structure Handlers where
  /-- The handlers that were not dropped. -/
  kept : List (String × SubscriberId)
  /-- The handlers that are being called, the latest call first. -/
  called : List (String × SubscriberId)
  /-- How many numbers were given out so far. -/
  issued : Nat
  deriving DecidableEq, Repr

structure Delivery where
  handler : String
  notice : Notice
  deriving DecidableEq, Repr

namespace Handlers

def empty : Handlers :=
  ⟨[], [], 0⟩

/-- The number of the handler with a name, which is made if there is none. -/
def subscribe (handlers : Handlers) (name : String) : SubscriberId × Handlers :=
  match handlers.kept.lookup name with
  | some id => (id, handlers)
  | none =>
    let kept := (name, handlers.issued) :: handlers.kept
    (handlers.issued, { handlers with kept, issued := handlers.issued + 1 })

/-- The number of a handler that was dropped as soon as it was made. -/
def subscribeGone (handlers : Handlers) : SubscriberId × Handlers :=
  (handlers.issued, { handlers with issued := handlers.issued + 1 })

def drop (handlers : Handlers) (name : String) : Bool × Handlers :=
  ((handlers.kept.lookup name).isSome,
    { handlers with kept := handlers.kept.filter fun handler => handler.1 ≠ name })

def nameOf? (handlers : Handlers) (id : SubscriberId) : Option String :=
  ((handlers.kept ++ handlers.called).find? fun handler => handler.2 = id).map (·.1)

def enter (handlers : Handlers) (name : String) (id : SubscriberId) : Handlers :=
  { handlers with called := (name, id) :: handlers.called }

def leave (handlers : Handlers) : Handlers :=
  { handlers with called := handlers.called.tail }

/-- The calls that a completion makes: one for each subscriber that is alive, in order. -/
def deliveries (handlers : Handlers) (completion : Completion) : List Delivery :=
  completion.subscribers.filterMap fun id =>
    (handlers.nameOf? id).map fun handler => ⟨handler, completion.notice⟩

end Handlers

end Thumbnails
