import Thumbnails.Store.Chain
import Thumbnails.Store.KeyIndex

/-!
# The record store

Records lie in numbered slots, and a slot that was freed is used again under another generation, so
a name that has gone stale reaches nothing. Over the slots run two orders that do not know of each
other:

* the load order, in which the loader finds its work at the front;
* the recency order, in which loaded records come first, the one that was used least recently at
  the head. A boundary marks the first record after them, so a record joins their end without a
  search.

Every operation does one thing to the orders or to the records. Keeping queued records at the front
and loaded ones before the boundary is up to the caller.
-/

namespace Thumbnails

structure Slot where
  generation : UInt32
  record : Option Record

instance : Inhabited Slot :=
  ⟨⟨0, none⟩⟩

/-- Records by key, with a load order and a recency order. -/
structure Store where
  slots : Table Slot
  /-- The slots that were freed, the last one first. -/
  free : List Nat
  index : KeyIndex
  load : Chain
  recency : Chain
  /-- The first record of the recency order that is not loaded. -/
  boundary : Option Nat
  queuedCount : Nat
  loadedCount : Nat

namespace Store

def empty : Store :=
  { slots := Table.empty
    free := []
    index := KeyIndex.empty
    load := Chain.empty
    recency := Chain.empty
    boundary := none
    queuedCount := 0
    loadedCount := 0 }

def size (store : Store) : Nat :=
  store.index.size

def recordAt? (store : Store) (slot : Nat) : Option Record :=
  (store.slots.get slot).record

def idAt (store : Store) (slot : Nat) : RecordId :=
  ⟨slot, (store.slots.get slot).generation⟩

/-- The record of a name that has not gone stale. -/
def get? (store : Store) (id : RecordId) : Option Record :=
  let slot := store.slots.get id.slot
  if slot.generation = id.generation then slot.record else none

def find? (store : Store) (key : ThumbnailKey) : Option RecordId :=
  store.index.find? key

/-- Names and records in load order. -/
def loadOrder (store : Store) : List RecordId :=
  store.load.toList.map store.idAt

def recencyOrder (store : Store) : List RecordId :=
  store.recency.toList.map store.idAt

def countIn (store : Store) : RecordStatus → Store
  | .queued => { store with queuedCount := store.queuedCount + 1 }
  | .loaded => { store with loadedCount := store.loadedCount + 1 }
  | .inProgress | .loadFailed => store

def countOut (store : Store) : RecordStatus → Store
  | .queued => { store with queuedCount := store.queuedCount - 1 }
  | .loaded => { store with loadedCount := store.loadedCount - 1 }
  | .inProgress | .loadFailed => store

/-- The store with another record in a slot of the same generation. -/
def putRecord (store : Store) (slot : Nat) (record : Option Record) : Store :=
  { store with slots := store.slots.set slot { store.slots.get slot with record } }

/-- Changes the record of a name, apart from its status. -/
def update (store : Store) (id : RecordId) (change : Record → Record) : Store :=
  match store.get? id with
  | none => store
  | some record => store.putRecord id.slot (some (change record))

/-- The slot for the next record, with the slots that are free after that. -/
def takeSlot (store : Store) : Nat × List Nat :=
  match store.free with
  | slot :: free => (slot, free)
  | [] => (store.slots.size, [])

/-- Adds the record of a key that has none. It comes first in the load order and last in the
recency order. -/
def insert (store : Store) (record : Record) : RecordId × Store :=
  let (slot, free) := store.takeSlot
  let id := store.idAt slot
  let placed := { store.putRecord slot (some record) with
    free
    index := store.index.insert record.key id
    load := store.load.linkBefore slot store.load.head
    recency := store.recency.linkBefore slot none
    boundary := store.boundary.or (some slot) }
  (id, placed.countIn record.status)

/-- Changes the status of a record, and the counters with it. -/
def setStatus (store : Store) (id : RecordId) (status : RecordStatus) : Store :=
  match store.get? id with
  | none => store
  | some record =>
    let changed := store.putRecord id.slot (some { record with status })
    if record.status = status then changed else (changed.countOut record.status).countIn status

def moveToLoadFront (store : Store) (id : RecordId) : Store :=
  match store.get? id with
  | none => store
  | some _ =>
    if store.load.head = some id.slot then store
    else
      let rest := store.load.unlink id.slot
      { store with load := rest.linkBefore id.slot rest.head }

def moveToLoadBack (store : Store) (id : RecordId) : Store :=
  match store.get? id with
  | none => store
  | some _ =>
    if store.load.tail = some id.slot then store
    else { store with load := (store.load.unlink id.slot).linkBefore id.slot none }

/-- Makes a record the last of the loaded ones. If it is the first record after them, only the
boundary moves. -/
def moveToLoadedTail (store : Store) (id : RecordId) : Store :=
  match store.get? id with
  | none => store
  | some _ =>
    if store.boundary = some id.slot then
      { store with boundary := store.recency.next (some id.slot) }
    else
      { store with
        recency := (store.recency.unlink id.slot).linkBefore id.slot store.boundary }

/-- The record that was used least recently, if the recency order begins with a loaded one. -/
def leastRecentlyUsed? (store : Store) : Option RecordId :=
  match store.recency.head with
  | none => none
  | some slot =>
    match store.recordAt? slot with
    | none => none
    | some record => if record.status = .loaded then some (store.idAt slot) else none

/-- Takes a record out of the index and both orders, and frees its slot. -/
def remove (store : Store) (id : RecordId) : Option Record × Store :=
  match store.get? id with
  | none => (none, store)
  | some record =>
    let boundary :=
      if store.boundary = some id.slot then store.recency.next (some id.slot) else store.boundary
    let removed := { store with
      slots := store.slots.set id.slot ⟨id.generation + 1, none⟩
      free := id.slot :: store.free
      index := store.index.erase record.key
      load := store.load.unlink id.slot
      recency := store.recency.unlink id.slot
      boundary }
    (some record, removed.countOut record.status)

end Store

end Thumbnails
