import Thumbnails.Proofs.Cache.Tidy

/-!
# Consistency

Status changes and moves within the orders are separate operations of the store, and it is up to the
cache to keep them in step. `CacheState.Consistent` says what that comes to, in terms of what can be
seen of a cache: the walks along its orders, its counters, and the records it finds. The state of a
cache is consistent between any two calls of any run.
-/

namespace Thumbnails

def Store.statusOf? (store : Store) (id : RecordId) : Option RecordStatus :=
  (store.get? id).map Record.status

namespace CacheState

structure Consistent (state : CacheState) : Prop where
  queued_first : state.store.loadOrder.Pairwise fun id other =>
    state.store.statusOf? other = some .queued → state.store.statusOf? id = some .queued
  loaded_first : state.store.recencyOrder.Pairwise fun id other =>
    state.store.statusOf? other = some .loaded → state.store.statusOf? id = some .loaded
  boundary : state.store.boundary.map state.store.idAt =
    state.store.recencyOrder.find? fun id => state.store.statusOf? id ≠ some .loaded
  /-- Both orders hold every record, and every record once. -/
  load_nodup : state.store.loadOrder.Nodup
  recency_nodup : state.store.recencyOrder.Nodup
  mem_load : ∀ id, id ∈ state.store.loadOrder ↔ (state.store.get? id).isSome
  mem_recency : ∀ id, id ∈ state.store.recencyOrder ↔ (state.store.get? id).isSome
  queuedCount : state.store.queuedCount =
    state.store.loadOrder.countP fun id => state.store.statusOf? id = some .queued
  loadedCount : state.store.loadedCount =
    state.store.loadOrder.countP fun id => state.store.statusOf? id = some .loaded
  loadedCount_le : state.store.loadedCount ≤ state.capacity
  loaded_pixmap : ∀ id record, state.store.get? id = some record → record.status = .loaded →
    record.pixmap.isSome
  waiting : ∀ id record, state.store.get? id = some record →
    record.status = .queued ∨ record.status = .inProgress →
      record.pixmap = none ∧ record.subscribers ≠ []
  finished : ∀ id record, state.store.get? id = some record →
    record.status = .loaded ∨ record.status = .loadFailed → record.subscribers = []
  nextJob : state.nextJob.1 = none ↔ ∀ id, state.store.statusOf? id ≠ some .queued

namespace Tidy

variable {state : CacheState} {view : StoreView}

theorem statusOf?_eq (tidy : state.Tidy view) (id : RecordId) :
    state.store.statusOf? id = view.statusOf? id := by
  rw [Store.statusOf?, tidy.represents.records, StoreView.statusOf?]

/-- What comes after the loaded records is not loaded. -/
theorem loaded_first (tidy : state.Tidy view) : view.recency.Pairwise fun id other =>
    view.statusOf? other = some .loaded → view.statusOf? id = some .loaded := by
  apply List.pairwise_append.mpr
  refine ⟨?_, ?_, ?_⟩
  · apply List.Pairwise.imp_of_mem _ (List.pairwise_of_forall fun _ _ => trivial)
    intro id other idMem _ _ _
    exact tidy.orderly.settled_loaded id idMem
  · apply List.Pairwise.imp_of_mem _ (List.pairwise_of_forall fun _ _ => trivial)
    intro id other _ otherMem _ loaded
    exact absurd loaded (tidy.orderly.pending_unloaded other otherMem)
  · intro id idMem other _ _
    exact tidy.orderly.settled_loaded id idMem

theorem find_unloaded (tidy : state.Tidy view) :
    view.recency.find? (fun id => view.statusOf? id ≠ some .loaded) = view.pending.head? := by
  have settled : view.settled.find? (fun id => view.statusOf? id ≠ some .loaded) = none := by
    apply List.find?_eq_none.mpr
    intro id idMem
    simp [tidy.orderly.settled_loaded id idMem]
  rw [StoreView.recency, List.find?_append, settled, Option.none_or]
  cases pendingEq : view.pending with
  | nil => rfl
  | cons first rest =>
      have unloaded := tidy.orderly.pending_unloaded first (by simp [pendingEq])
      simp [unloaded]

theorem nextJob_eq_none_iff (tidy : state.Tidy view) :
    state.nextJob.1 = none ↔ ∀ id, view.statusOf? id ≠ some .queued := by
  rcases tidy.nextJob with ⟨next, effect, _⟩
  change state.Effect view .nextJob (.taken state.nextJob.1) state.nextJob.2 next at effect
  generalize state.nextJob.1 = dequeued, state.nextJob.2 = after at effect
  cases effect with
  | nothingQueued idle => simp [idle]
  | jobExpired first present queued stale =>
      simp only [reduceCtorEq, false_iff]
      intro idle
      exact idle _ (by rw [StoreView.statusOf?_eq present, queued])
  | jobStarted first present queued timely =>
      simp only [reduceCtorEq, false_iff]
      intro idle
      exact idle _ (by rw [StoreView.statusOf?_eq present, queued])

theorem consistent (tidy : state.Tidy view) : state.Consistent where
  queued_first := by
    simp only [tidy.represents.loadOrder_eq, tidy.statusOf?_eq]
    exact tidy.orderly.queued_first
  loaded_first := by
    simp only [tidy.represents.recencyOrder_eq, tidy.statusOf?_eq]
    exact tidy.loaded_first
  boundary := by
    simp only [tidy.represents.recencyOrder_eq, tidy.statusOf?_eq]
    rw [tidy.represents.boundary_idAt, tidy.find_unloaded]
  load_nodup := by
    rw [tidy.represents.loadOrder_eq]
    exact tidy.wellFormed.load_nodup
  recency_nodup := by
    rw [tidy.represents.recencyOrder_eq]
    exact tidy.wellFormed.recency_nodup
  mem_load := by
    intro id
    rw [tidy.represents.loadOrder_eq, tidy.represents.records]
    exact tidy.wellFormed.mem_load id
  mem_recency := by
    intro id
    rw [tidy.represents.recencyOrder_eq, tidy.represents.records]
    exact tidy.wellFormed.mem_recency id
  queuedCount := by
    simp only [tidy.represents.loadOrder_eq, tidy.statusOf?_eq]
    exact tidy.represents.queuedCount
  loadedCount := by
    simp only [tidy.represents.loadOrder_eq, tidy.statusOf?_eq]
    exact tidy.represents.loadedCount
  loadedCount_le := by
    rw [tidy.loadedCount_eq]
    exact tidy.settled_le
  loaded_pixmap := by
    intro id record found
    rw [tidy.represents.records] at found
    exact (tidy.orderly.proper id record found).loaded_pixmap
  waiting := by
    intro id record found status
    rw [tidy.represents.records] at found
    have proper := tidy.orderly.proper id record found
    have unfinished : record.status.isFinished = false := by
      rcases status with status | status <;> rw [status] <;> rfl
    exact ⟨proper.waiting_pixmap unfinished, proper.waiting_subscribers unfinished⟩
  finished := by
    intro id record found status
    rw [tidy.represents.records] at found
    apply (tidy.orderly.proper id record found).finished_subscribers
    rcases status with status | status <;> rw [status] <;> rfl
  nextJob := by
    simp only [tidy.statusOf?_eq]
    exact tidy.nextJob_eq_none_iff

end Tidy

/-- The state of a cache is consistent after any calls, whatever it was set up with. It keeps room
for one thumbnail at least. -/
theorem consistent_after (config : Config) (directory : Path) (calls : List CacheCall) :
    ((new config directory).after calls).Consistent ∧
      ((new config directory).after calls).capacity = max config.maxCachedPixmaps.toNat 1 := by
  rcases tidy_after config directory calls with ⟨view, tidy⟩
  exact ⟨tidy.consistent, capacity_after config directory calls⟩

end CacheState

end Thumbnails
