import Thumbnails.Proofs.Store.Representation

/-!
# Runs of a store

A run applies operations to the empty store, with any names and statuses and in any order. The same
operations applied to the empty view lead to a view that shows everything there is to see of the
store: walking its orders, looking up its names and keys, its counters and its boundary.

Only an insertion makes a choice, that of the name. It is handed on to the view with the event, and
all that matters about it is that the name stands for nothing yet.
-/

namespace Thumbnails

/-- An operation on a store, with the name that an insertion answers. -/
inductive StoreEvent where
  | insert (record : Record) (id : RecordId)
  | setStatus (id : RecordId) (status : RecordStatus)
  | moveToLoadFront (id : RecordId)
  | moveToLoadBack (id : RecordId)
  | moveToLoadedTail (id : RecordId)
  | remove (id : RecordId)

namespace Store

def apply (store : Store) : StoreEvent → Store
  | .insert record _ => (store.insert record).2
  | .setStatus id status => store.setStatus id status
  | .moveToLoadFront id => store.moveToLoadFront id
  | .moveToLoadBack id => store.moveToLoadBack id
  | .moveToLoadedTail id => store.moveToLoadedTail id
  | .remove id => (store.remove id).2

/-- Records are only inserted under keys that have none. -/
def Admits (store : Store) : StoreEvent → Prop
  | .insert record id => store.find? record.key = none ∧ (store.insert record).1 = id
  | _ => True

/-- The stores that operations lead to. -/
inductive Run : List StoreEvent → Store → Prop where
  | start : Run [] Store.empty
  | step {events : List StoreEvent} {store : Store} (run : Run events store) (event : StoreEvent)
      (admitted : store.Admits event) : Run (events ++ [event]) (store.apply event)

end Store

namespace StoreView

def apply (view : StoreView) : StoreEvent → StoreView
  | .insert record id => view.insert id record
  | .setStatus id status => view.setStatus id status
  | .moveToLoadFront id => view.moveToLoadFront id
  | .moveToLoadBack id => view.moveToLoadBack id
  | .moveToLoadedTail id => view.moveToLoadedTail id
  | .remove id => view.remove id

def ofEvents (events : List StoreEvent) : StoreView :=
  events.foldl apply empty

theorem ofEvents_append (events : List StoreEvent) (event : StoreEvent) :
    ofEvents (events ++ [event]) = (ofEvents events).apply event := by
  simp [ofEvents]

end StoreView

namespace Store

variable {store : Store} {view : StoreView} {event : StoreEvent} {events : List StoreEvent}

/-- What can be seen of a store is what a view says. -/
structure Shows (store : Store) (view : StoreView) : Prop where
  loadOrder : store.loadOrder = view.load
  recencyOrder : store.recencyOrder = view.settled ++ view.pending
  boundary : store.boundary.map store.idAt = view.pending.head?
  records : ∀ id, store.get? id = view.records id
  names : ∀ key, store.find? key = view.names key
  size : store.size = view.load.length
  queuedCount : store.queuedCount = view.count .queued
  loadedCount : store.loadedCount = view.count .loaded
  leastRecentlyUsed? : store.leastRecentlyUsed? =
    (view.settled ++ view.pending).head?.filter fun id => view.statusOf? id = some .loaded
  /-- An insertion answers a name that stands for nothing. -/
  inserted : ∀ record, view.records (store.insert record).1 = none
  /-- A removal answers what the name stood for. -/
  removed : ∀ id, (store.remove id).1 = view.records id
  /-- A key names the one record it belongs to. -/
  keyed : ∀ key id, view.names key = some id ↔
    ∃ record, view.records id = some record ∧ record.key = key
  load_nodup : view.load.Nodup
  mem_load : ∀ id, id ∈ view.load ↔ (store.get? id).isSome
  recency_nodup : (view.settled ++ view.pending).Nodup
  mem_recency : ∀ id, id ∈ view.settled ++ view.pending ↔ (store.get? id).isSome
  /-- The two directions of the links are each other's inverse. -/
  load_mirrored : store.load.Mirrored (view.load.map RecordId.slot)
  recency_mirrored : store.recency.Mirrored ((view.settled ++ view.pending).map RecordId.slot)
  /-- Walks along the links end by themselves, however many steps are allowed. -/
  load_walk : ∀ fuel, store.load.links.size ≤ fuel →
    store.load.walk fuel store.load.head = view.load.map RecordId.slot
  recency_walk : ∀ fuel, store.recency.links.size ≤ fuel →
    store.recency.walk fuel store.recency.head = (view.settled ++ view.pending).map RecordId.slot

theorem Represents.shows (represents : store.Represents view) : store.Shows view where
  loadOrder := represents.loadOrder_eq
  recencyOrder := represents.recencyOrder_eq
  boundary := represents.boundary_idAt
  records := represents.records
  names := represents.names
  size := represents.size
  queuedCount := represents.queuedCount
  loadedCount := represents.loadedCount
  leastRecentlyUsed? := represents.leastRecentlyUsed?_eq
  inserted := represents.records_insert_fst
  removed := represents.remove_fst
  keyed := represents.wellFormed.names_iff
  load_nodup := represents.wellFormed.load_nodup
  mem_load := by
    intro id
    rw [represents.records]
    exact represents.wellFormed.mem_load id
  recency_nodup := represents.wellFormed.recency_nodup
  mem_recency := by
    intro id
    rw [represents.records]
    exact represents.wellFormed.mem_recency id
  load_mirrored := represents.load.mirrored
  recency_mirrored := represents.recency.mirrored
  load_walk := fun _ enough => represents.load.walk_head enough
  recency_walk := fun _ enough => represents.recency.walk_head enough

theorem Represents.apply (represents : store.Represents view) (admitted : store.Admits event) :
    (store.apply event).Represents (view.apply event) := by
  cases event with
  | insert record id =>
      rcases admitted with ⟨absent, rfl⟩
      rw [represents.names] at absent
      exact represents.insert absent
  | setStatus id status => exact represents.setStatus id status
  | moveToLoadFront id => exact represents.moveToLoadFront id
  | moveToLoadBack id => exact represents.moveToLoadBack id
  | moveToLoadedTail id => exact represents.moveToLoadedTail id
  | remove id => exact represents.remove id

theorem Run.represents (run : Run events store) : store.Represents (StoreView.ofEvents events) := by
  induction run with
  | start => exact Represents.empty
  | step _ event admitted ih =>
      rw [StoreView.ofEvents_append]
      exact ih.apply admitted

/-- After every run, the store shows the view that the same operations lead to. -/
theorem Run.shows_ofEvents (run : Run events store) : store.Shows (StoreView.ofEvents events) :=
  run.represents.shows

def letterRecord (letter : UInt8) : Record :=
  Record.queued (ThumbnailKey.of ⟨[letter]⟩ 0 "") (.constant .crashed) 0

/-- Two records pass the boundary, one from behind it and one as the boundary itself. The second
leaves, its slot is used again, and its old name is moved to no effect. -/
def reuseEvents : List StoreEvent :=
  [.insert (letterRecord 0x61) ⟨0, 0⟩, .insert (letterRecord 0x62) ⟨1, 0⟩,
    .insert (letterRecord 0x63) ⟨2, 0⟩, .setStatus ⟨2, 0⟩ .loaded, .moveToLoadedTail ⟨2, 0⟩,
    .moveToLoadedTail ⟨0, 0⟩, .remove ⟨0, 0⟩, .insert (letterRecord 0x64) ⟨0, 1⟩,
    .moveToLoadBack ⟨2, 0⟩, .moveToLoadFront ⟨0, 0⟩]

theorem run_reuseEvents : Run reuseEvents (reuseEvents.foldl apply empty) := by
  have first := Run.start.step (.insert (letterRecord 0x61) ⟨0, 0⟩) ⟨by decide, by decide⟩
  have second := first.step (.insert (letterRecord 0x62) ⟨1, 0⟩) ⟨by decide, by decide⟩
  have third := second.step (.insert (letterRecord 0x63) ⟨2, 0⟩) ⟨by decide, by decide⟩
  have loaded := third.step (.setStatus ⟨2, 0⟩ .loaded) trivial
  have passed := (loaded.step (.moveToLoadedTail ⟨2, 0⟩) trivial).step
    (.moveToLoadedTail ⟨0, 0⟩) trivial
  have removed := passed.step (.remove ⟨0, 0⟩) trivial
  have again := removed.step (.insert (letterRecord 0x64) ⟨0, 1⟩) ⟨by decide, by decide⟩
  exact (again.step (.moveToLoadBack ⟨2, 0⟩) trivial).step (.moveToLoadFront ⟨0, 0⟩) trivial

theorem shows_reuseEvents :
    Run reuseEvents (reuseEvents.foldl apply empty) ∧
      (reuseEvents.foldl apply empty).Shows (StoreView.ofEvents reuseEvents) ∧
      (StoreView.ofEvents reuseEvents).load = [⟨0, 1⟩, ⟨1, 0⟩, ⟨2, 0⟩] ∧
      (StoreView.ofEvents reuseEvents).settled = [⟨2, 0⟩] ∧
      (StoreView.ofEvents reuseEvents).pending = [⟨1, 0⟩, ⟨0, 1⟩] :=
  ⟨run_reuseEvents, run_reuseEvents.shows_ofEvents, by decide, by decide, by decide⟩

end Store

end Thumbnails
