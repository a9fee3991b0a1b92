import Thumbnails.Error.Basic
import Thumbnails.Image.Scale

/-!
# Generators

A generator turns a decoded source into a thumbnail that has to fit a box. It may fail with an
error, and it may break down without one. The scaled generator shrinks its source and never
enlarges it.
-/

namespace Thumbnails

inductive Outcome (α : Type) where
  | done (value : α)
  | failed (error : Error)
  /-- The work broke down and left no error behind. -/
  | crashed
  deriving Repr

structure Generator where
  generate : Image → Size → Outcome Image

namespace Outcome

def bind {α β : Type} (outcome : Outcome α) (next : α → Outcome β) : Outcome β :=
  match outcome with
  | done value => next value
  | failed error => failed error
  | crashed => crashed

def value? {α : Type} : Outcome α → Option α
  | done value => some value
  | _ => none

def ofExcept {α : Type} : Except Error α → Outcome α
  | .ok value => done value
  | .error error => failed error

end Outcome

namespace Generator

def description : String :=
  "dyn ThumbnailGenerator"

/-- Shrinks a source into the box with a filter. -/
def scaled [ImageLibrary] (filter : Filter) : Generator where
  generate source box :=
    if source.isEmpty then .failed (.generate "source image is empty")
    else .done (source.shrinkInto filter box)

def standard [ImageLibrary] : Generator :=
  scaled .triangle

def constant (outcome : Outcome Image) : Generator where
  generate _ _ := outcome

end Generator

end Thumbnails
