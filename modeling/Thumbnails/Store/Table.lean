/-!
# Tables

A table gives a value to every number, and to all but finitely many of them the default. It is an
array that grows when a place behind its end is written, so reading and writing need no bounds:
`get_set` and `size_set` are all there is to know about them.
-/

namespace Thumbnails

/-- Values at numbered places, the default behind the end. -/
structure Table (α : Type) where
  cells : Array α

namespace Table

variable {α : Type} [Inhabited α]

def empty : Table α :=
  ⟨#[]⟩

def size (table : Table α) : Nat :=
  table.cells.size

def get (table : Table α) (place : Nat) : α :=
  table.cells.getD place default

def set (table : Table α) (place : Nat) (value : α) : Table α :=
  if inside : place < table.cells.size then ⟨table.cells.set place value⟩
  else ⟨(table.cells ++ Array.replicate (place - table.cells.size) default).push value⟩

@[simp]
theorem get_empty (place : Nat) : (empty : Table α).get place = default := by
  simp [empty, get]

@[simp]
theorem get_set (table : Table α) (place other : Nat) (value : α) :
    (table.set place value).get other = if other = place then value else table.get other := by
  unfold set get
  split
  · simp only [Array.getD_eq_getD_getElem?, Array.getElem?_set]
    grind
  · simp only [Array.getD_eq_getD_getElem?, Array.getElem?_push, Array.getElem?_append,
      Array.getElem?_replicate, Array.size_append, Array.size_replicate]
    grind

theorem size_set (table : Table α) (place : Nat) (value : α) :
    (table.set place value).size = max table.size (place + 1) := by
  unfold set size
  split
  · simp only [Array.size_set]
    omega
  · simp only [Array.size_push, Array.size_append, Array.size_replicate]
    omega

end Table

end Thumbnails
