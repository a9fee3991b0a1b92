import Thumbnails.Store.Table

/-!
# Chains

A chain keeps numbered nodes in an order. Each node knows its two neighbours, so a node is taken
out or put before another one without walking the chain.

The ends of a chain are the neighbours of no node: `none` comes before the first node and after the
last one. With that reading the head is the successor of `none` and the tail its predecessor, and
the cases of a splice collapse into one.
-/

namespace Thumbnails

structure Links where
  previous : Option Nat
  next : Option Nat
  deriving DecidableEq, Repr, Inhabited

structure Chain where
  head : Option Nat
  tail : Option Nat
  links : Table Links

namespace Chain

def empty : Chain :=
  ⟨none, none, Table.empty⟩

/-- The node after a node. The head comes after `none`. -/
def next (chain : Chain) : Option Nat → Option Nat
  | none => chain.head
  | some node => (chain.links.get node).next

/-- The node before a node. The tail comes before `none`. -/
def previous (chain : Chain) : Option Nat → Option Nat
  | none => chain.tail
  | some node => (chain.links.get node).previous

def setNext (chain : Chain) (node next : Option Nat) : Chain :=
  match node with
  | none => { chain with head := next }
  | some node =>
    { chain with links := chain.links.set node { chain.links.get node with next := next } }

def setPrevious (chain : Chain) (node previous : Option Nat) : Chain :=
  match node with
  | none => { chain with tail := previous }
  | some node =>
    { chain with links := chain.links.set node { chain.links.get node with previous := previous } }

/-- Puts a node that is not in the chain before another one, or at the end. -/
def linkBefore (chain : Chain) (node : Nat) (before : Option Nat) : Chain :=
  let previous := chain.previous before
  let placed := { chain with links := chain.links.set node ⟨previous, before⟩ }
  (placed.setNext previous (some node)).setPrevious before (some node)

def unlink (chain : Chain) (node : Nat) : Chain :=
  let links := chain.links.get node
  let joined := (chain.setNext links.previous links.next).setPrevious links.next links.previous
  { joined with links := joined.links.set node default }

/-- The nodes from one node onwards, as many as the fuel allows. -/
def walk (chain : Chain) : Nat → Option Nat → List Nat
  | 0, _ => []
  | _, none => []
  | fuel + 1, some node => node :: chain.walk fuel (chain.next (some node))

def toList (chain : Chain) : List Nat :=
  chain.walk chain.links.size chain.head

@[simp]
theorem next_setNext (chain : Chain) (node value other : Option Nat) :
    (chain.setNext node value).next other = if other = node then value else chain.next other := by
  rcases node with _ | node <;> rcases other with _ | other <;> simp [setNext, next]
  split <;> simp_all

@[simp]
theorem previous_setNext (chain : Chain) (node value other : Option Nat) :
    (chain.setNext node value).previous other = chain.previous other := by
  rcases node with _ | node <;> rcases other with _ | other <;> simp [setNext, previous]
  split <;> simp_all

@[simp]
theorem next_setPrevious (chain : Chain) (node value other : Option Nat) :
    (chain.setPrevious node value).next other = chain.next other := by
  rcases node with _ | node <;> rcases other with _ | other <;> simp [setPrevious, next]
  split <;> simp_all

@[simp]
theorem previous_setPrevious (chain : Chain) (node value other : Option Nat) :
    (chain.setPrevious node value).previous other =
      if other = node then value else chain.previous other := by
  rcases node with _ | node <;> rcases other with _ | other <;> simp [setPrevious, previous]
  split <;> simp_all

end Chain

end Thumbnails
