import Thumbnails.Proofs.Cache.Run
import Thumbnails.Proofs.Cache.View
import Thumbnails.Proofs.Store.Representation

/-!
# The effect of a call

`CacheState.Effect` lists all that a call can do: when it does it, what it answers, and what becomes
of the state and of the view that its store represents. A state is tidy if its view is orderly and
no more records are loaded than there is room for. Every call on a tidy state has one of the effects
listed and leads to a tidy state again, so an invariant of a cache needs only to be checked against
the list.
-/

namespace Thumbnails

/-- What memory answers for a key, and what becomes of the view when it does. -/
inductive StoreView.Answers (view : StoreView) (key : ThumbnailKey) :
    Option RequestStatus → StoreView → Prop where
  | hit {id : RecordId} {record : Record} {pixmap : Image} (named : view.names key = some id)
      (present : view.records id = some record) (loaded : record.status = .loaded)
      (pixmapEq : record.pixmap = some pixmap) :
      Answers view key (some (.loaded pixmap)) (view.refresh id)
  | failed {id : RecordId} {record : Record} (named : view.names key = some id)
      (present : view.records id = some record) (failed : record.status = .loadFailed) :
      Answers view key (some (.loadFailed record.pixmap)) view
  | waiting {id : RecordId} {record : Record} (named : view.names key = some id)
      (present : view.records id = some record) (waiting : record.status.isFinished = false) :
      Answers view key none view
  | absent (unnamed : view.names key = none) : Answers view key none view

/-- Memory has no answer for a key as long as the key has no finished record. -/
theorem StoreView.Answers.unfinished {view next : StoreView} {key : ThumbnailKey}
    (answers : view.Answers key none next) {id : RecordId} {record : Record}
    (named : view.names key = some id) (present : view.records id = some record) :
    record.status.isFinished = false := by
  cases answers with
  | waiting otherNamed otherPresent waiting =>
      cases named.symm.trans otherNamed
      cases present.symm.trans otherPresent
      exact waiting
  | absent unnamed => cases unnamed.symm.trans named

/-- Memory answers for a key only if its record is finished. -/
theorem StoreView.Answers.finished {view next : StoreView} {key : ThumbnailKey}
    {status : RequestStatus} (answers : view.Answers key (some status) next) {id : RecordId}
    {record : Record} (named : view.names key = some id) (present : view.records id = some record) :
    record.status.isFinished = true := by
  cases answers with
  | hit otherNamed otherPresent loaded =>
      cases named.symm.trans otherNamed
      cases present.symm.trans otherPresent
      rw [loaded]
      rfl
  | failed otherNamed otherPresent failed =>
      cases named.symm.trans otherNamed
      cases present.symm.trans otherPresent
      rw [failed]
      rfl

namespace CacheState

/-- What is said of a wake-up once a record is queued. -/
def wakeFor (state : CacheState) (otherwise : Wake) : Wake :=
  if state.loaderStarted then otherwise else .start

/-- What a call can do to a state whose store represents a view. -/
inductive Effect (state : CacheState) (view : StoreView) :
    CacheCall → CacheAnswer → CacheState → StoreView → Prop where
  | requestRefused {key : ThumbnailKey} {generator : Generator} {subscriber : SubscriberId}
      (closing : state.shuttingDown = true) :
      Effect state view (.request key generator subscriber)
        (.status (.loadFailed none) .nothing) state view
  | requestAnswered {key : ThumbnailKey} {generator : Generator} {subscriber : SubscriberId}
      {status : RequestStatus} {store : Store} {next : StoreView}
      (running : state.shuttingDown = false) (answers : view.Answers key (some status) next) :
      Effect state view (.request key generator subscriber) (.status status .nothing)
        { state with store } next
  | requestJoined {key : ThumbnailKey} {generator : Generator} {subscriber : SubscriberId}
      {id : RecordId} {record : Record} {store : Store} (running : state.shuttingDown = false)
      (named : view.names key = some id) (present : view.records id = some record)
      (waiting : record.status.isFinished = false) :
      Effect state view (.request key generator subscriber)
        (.status .queued (state.wakeFor .nothing)) { state with store, loaderStarted := true }
        (view.join id record subscriber)
  | requestCreated {key : ThumbnailKey} {generator : Generator} {subscriber : SubscriberId}
      {id : RecordId} {store : Store} (running : state.shuttingDown = false)
      (unnamed : view.names key = none) (fresh : view.records id = none) :
      Effect state view (.request key generator subscriber)
        (.status .queued (state.wakeFor (if view.count .queued = 0 then .notify else .nothing)))
        { state with store, loaderStarted := true }
        (view.insert id (.created key generator state.clock subscriber))
  | lookup {key : ThumbnailKey} {status : Option RequestStatus} {store : Store} {next : StoreView}
      (answers : view.Answers key status next) :
      Effect state view (.lookup key) (.found status) { state with store } next
  | peekRefused {key : ThumbnailKey} (closing : state.shuttingDown = true) :
      Effect state view (.peek key) (.shown (.loadFailed none)) state view
  | peekAnswered {key : ThumbnailKey} {status : Option RequestStatus} {store : Store}
      {next : StoreView} (running : state.shuttingDown = false)
      (answers : view.Answers key status next) :
      Effect state view (.peek key) (.shown (status.getD (.loadFailed none))) { state with store }
        next
  | nothingQueued (idle : ∀ id, view.statusOf? id ≠ some .queued) :
      Effect state view .nextJob (.taken none) state view
  | jobExpired {id : RecordId} {rest : List RecordId} {record : Record} {store : Store}
      (first : view.load = id :: rest) (present : view.records id = some record)
      (queued : record.status = .queued)
      (stale : state.threshold < state.clock - record.createdAt) :
      Effect state view .nextJob (.taken (some (.expired id))) { state with store }
        (view.take id record)
  | jobStarted {id : RecordId} {rest : List RecordId} {record : Record} {store : Store}
      (first : view.load = id :: rest) (present : view.records id = some record)
      (queued : record.status = .queued)
      (timely : state.clock - record.createdAt ≤ state.threshold) :
      Effect state view .nextJob
        (.taken (some (.load ⟨id, record.key, state.directory, state.maxSize, record.generator⟩)))
        { state with
          store
          clock := saturatingAdd state.clock 1
          loadsStarted := saturatingAdd state.loadsStarted 1 }
        (view.take id record)
  | resultDropped {result : LoadResult}
      (dropped : state.shuttingDown = true ∨ view.statusOf? result.id ≠ some .inProgress) :
      Effect state view (.complete result) (.completed none) state view
  | resultLanded {id : RecordId} {record : Record} {pixmap : Image} {store : Store}
      (running : state.shuttingDown = false) (present : view.records id = some record)
      (inProgress : record.status = .inProgress) :
      Effect state view (.complete ⟨id, .loaded, some pixmap⟩)
        (.completed (some ⟨record.subscribers, ⟨.loaded, some pixmap⟩⟩)) { state with store }
        ((view.makeRoom state.capacity).land id record pixmap)
  | resultExpired {id : RecordId} {record : Record} {pixmap : Option Image} {store : Store}
      (running : state.shuttingDown = false) (present : view.records id = some record)
      (inProgress : record.status = .inProgress) :
      Effect state view (.complete ⟨id, .requestExpired, pixmap⟩)
        (.completed (some ⟨record.subscribers, ⟨.requestExpired, none⟩⟩)) { state with store }
        (view.remove id)
  | resultFailed {id : RecordId} {record : Record} {status : LoadStatus} {pixmap : Option Image}
      {store : Store} (running : state.shuttingDown = false)
      (present : view.records id = some record) (inProgress : record.status = .inProgress)
      (failed : status = .loadFailed ∨ status = .loaded ∧ pixmap = none) :
      Effect state view (.complete ⟨id, status, pixmap⟩)
        (.completed (some ⟨record.subscribers, ⟨.loadFailed, pixmap⟩⟩)) { state with store }
        (view.fail id record pixmap)
  | directoryKept {directory : Path} (same : directory.sameComponents state.directory = true) :
      Effect state view (.changeDirectory directory) (.flag false) state view
  | directoryChanged {directory : Path}
      (different : directory.sameComponents state.directory = false) :
      Effect state view (.changeDirectory directory) (.flag true)
        { state with directory }.expireQueued view
  | expireQueued : Effect state view .expireQueued .nothing state.expireQueued view
  | evictExcess {store : Store} :
      Effect state view .evictExcess .nothing { state with store }
        (view.makeRoom state.capacity)
  | nothingFinished {key : ThumbnailKey}
      (unfinished : ∀ id record, view.names key = some id → view.records id = some record →
        record.status.isFinished = false) :
      Effect state view (.forgetFinished key) (.flag false) state view
  | forgotten {key : ThumbnailKey} {id : RecordId} {record : Record} {store : Store}
      (named : view.names key = some id) (present : view.records id = some record)
      (finished : record.status.isFinished = true) :
      Effect state view (.forgetFinished key) (.flag true) { state with store } (view.remove id)
  | loaderLost : Effect state view .loaderLost .nothing { state with loaderStarted := false } view
  | shutDown : Effect state view .shutDown .nothing { state with shuttingDown := true } view

/-- A state between two calls. -/
structure Tidy (state : CacheState) (view : StoreView) : Prop where
  represents : state.store.Represents view
  orderly : view.Orderly
  capacity_pos : 0 < state.capacity
  settled_le : view.settled.length ≤ state.capacity

/-- What a call gives is one of its effects. -/
def HasEffect (state : CacheState) (view : StoreView) (call : CacheCall)
    (result : CacheAnswer × CacheState) : Prop :=
  ∃ next, state.Effect view call result.1 result.2 next ∧ result.2.store.Represents next

variable {state : CacheState} {view : StoreView} {id : RecordId} {record : Record}

theorem claimStart_eq (state : CacheState) (otherwise : Wake) :
    state.claimStart otherwise =
      (state.wakeFor otherwise, { state with loaderStarted := true }) := by
  simp only [claimStart, wakeFor]
  split
  · rename_i started
    simp [← started]
  · rfl

/-- Only the clock moves when what is queued expires. -/
theorem expireQueued_eq (state : CacheState) :
    ∃ clock, state.expireQueued = { state with clock } := by
  simp only [expireQueued]
  split
  · exact ⟨_, rfl⟩
  · exact ⟨state.clock, rfl⟩

@[simp]
theorem expireQueued_store (state : CacheState) : state.expireQueued.store = state.store := by
  rcases expireQueued_eq state with ⟨clock, expired⟩
  rw [expired]

@[simp]
theorem expireQueued_capacity (state : CacheState) :
    state.expireQueued.capacity = state.capacity := by
  rcases expireQueued_eq state with ⟨clock, expired⟩
  rw [expired]

@[simp]
theorem expireQueued_shuttingDown (state : CacheState) :
    state.expireQueued.shuttingDown = state.shuttingDown := by
  rcases expireQueued_eq state with ⟨clock, expired⟩
  rw [expired]

@[simp]
theorem expireQueued_loaderStarted (state : CacheState) :
    state.expireQueued.loaderStarted = state.loaderStarted := by
  rcases expireQueued_eq state with ⟨clock, expired⟩
  rw [expired]

namespace Tidy

theorem wellFormed (tidy : state.Tidy view) : view.WellFormed :=
  tidy.represents.wellFormed

theorem loadedCount_eq (tidy : state.Tidy view) :
    state.store.loadedCount = view.settled.length := by
  rw [tidy.represents.loadedCount]
  exact tidy.orderly.count_loaded tidy.wellFormed

theorem answer_lookup (tidy : state.Tidy view) (key : ThumbnailKey) : ∃ status store next,
    state.lookup key = (status, { state with store }) ∧ store.Represents next ∧
      view.Answers key status next := by
  have represents := tidy.represents
  simp only [CacheState.lookup, represents.names, represents.records]
  cases named : view.names key with
  | none => exact ⟨none, state.store, view, rfl, represents, .absent named⟩
  | some id =>
      rcases tidy.wellFormed.record_of_name named with ⟨record, present⟩
      simp only [present]
      cases status : record.status with
      | queued =>
          refine ⟨none, state.store, view, rfl, represents, .waiting named present ?_⟩
          rw [status]
          rfl
      | inProgress =>
          refine ⟨none, state.store, view, rfl, represents, .waiting named present ?_⟩
          rw [status]
          rfl
      | loadFailed =>
          exact ⟨_, state.store, view, rfl, represents, .failed named present status⟩
      | loaded =>
          have proper := tidy.orderly.proper id record present
          rcases Option.isSome_iff_exists.mp (proper.loaded_pixmap status) with ⟨pixmap, pixmapEq⟩
          have settled := tidy.orderly.mem_settled tidy.wellFormed present status
          have used := represents.moveToLoadedTail id
          rw [StoreView.moveToLoadedTail_eq present, List.erase_of_not_mem
            (tidy.wellFormed.not_mem_pending_of_mem_settled settled)] at used
          simp only [pixmapEq]
          exact ⟨_, _, _, rfl, used, .hit named present status pixmapEq⟩

theorem join (tidy : state.Tidy view) (present : view.records id = some record)
    (subscriber : SubscriberId) : ∃ store, state.join id subscriber = { state with store } ∧
      store.Represents (view.join id record subscriber) := by
  have kept : ∀ record : Record, (record.joined subscriber).key = record.key ∧
      (record.joined subscriber).status = record.status := fun _ => ⟨rfl, rfl⟩
  have joined := tidy.represents.update id kept
  have joinedPresent : (view.put id (record.joined subscriber)).records id =
      some (record.joined subscriber) := by simp [StoreView.records_put]
  rw [StoreView.update_eq present] at joined
  simp only [CacheState.join, tidy.represents.records, present]
  split
  · rename_i queued
    have moved := joined.moveToLoadFront id
    rw [StoreView.moveToLoadFront_eq joinedPresent] at moved
    refine ⟨_, rfl, ?_⟩
    rw [StoreView.join, if_pos queued]
    exact moved
  · rename_i unqueued
    refine ⟨_, rfl, ?_⟩
    rw [StoreView.join, if_neg unqueued]
    exact joined

theorem enqueue (tidy : state.Tidy view) {key : ThumbnailKey} (unnamed : view.names key = none)
    (generator : Generator) (subscriber : SubscriberId) : ∃ id store,
      state.enqueue key generator subscriber = { state with store } ∧ view.records id = none ∧
      store.Represents (view.insert id (.created key generator state.clock subscriber)) ∧
      (store.queuedCount = 1 ↔ view.count .queued = 0) := by
  have absent : view.names (Record.created key generator state.clock subscriber).key = none :=
    unnamed
  have inserted := tidy.represents.insert absent
  have fresh := tidy.represents.records_insert_fst
    (.created key generator state.clock subscriber)
  refine ⟨_, _, rfl, fresh, inserted, ?_⟩
  change (state.store.insert (.created key generator state.clock subscriber)).2.queuedCount = 1 ↔ _
  rw [inserted.queuedCount, StoreView.count_insert tidy.wellFormed fresh]
  simp [Record.created, Record.queued]

theorem request (tidy : state.Tidy view) (key : ThumbnailKey) (generator : Generator)
    (subscriber : SubscriberId) : state.HasEffect view (.request key generator subscriber)
      (state.perform (.request key generator subscriber)) := by
  have represents := tidy.represents
  simp only [CacheState.perform, CacheState.request]
  cases closing : state.shuttingDown with
  | true => exact ⟨view, .requestRefused closing, represents⟩
  | false =>
      rcases tidy.answer_lookup key with ⟨status, store, next, lookupEq, nextRepresents, answers⟩
      simp only [Bool.false_eq_true, if_false, lookupEq]
      cases status with
      | some status => exact ⟨next, .requestAnswered closing answers, nextRepresents⟩
      | none =>
          simp only [represents.names]
          cases named : view.names key with
          | some id =>
              rcases tidy.wellFormed.record_of_name named with ⟨record, present⟩
              rcases tidy.join present subscriber with ⟨joined, joinEq, joinRepresents⟩
              simp only [joinEq, claimStart_eq]
              exact ⟨_, .requestJoined closing named present (answers.unfinished named present),
                joinRepresents⟩
          | none =>
              rcases tidy.enqueue named generator subscriber with
                ⟨id, store, enqueueEq, fresh, queuedRepresents, first⟩
              simp only [enqueueEq, claimStart_eq, first]
              exact ⟨_, .requestCreated closing named fresh, queuedRepresents⟩

theorem lookup (tidy : state.Tidy view) (key : ThumbnailKey) :
    state.HasEffect view (.lookup key) (state.perform (.lookup key)) := by
  rcases tidy.answer_lookup key with ⟨status, store, next, lookupEq, nextRepresents, answers⟩
  simp only [CacheState.perform, lookupEq]
  exact ⟨next, .lookup answers, nextRepresents⟩

theorem peek (tidy : state.Tidy view) (key : ThumbnailKey) :
    state.HasEffect view (.peek key) (state.perform (.peek key)) := by
  simp only [CacheState.perform, CacheState.peek]
  cases closing : state.shuttingDown with
  | true => exact ⟨view, .peekRefused closing, tidy.represents⟩
  | false =>
      rcases tidy.answer_lookup key with ⟨status, store, next, lookupEq, nextRepresents, answers⟩
      simp only [Bool.false_eq_true, if_false, lookupEq]
      exact ⟨next, .peekAnswered closing answers, nextRepresents⟩

theorem head_of_load (tidy : state.Tidy view) : state.store.load.head =
    view.load.head?.map RecordId.slot := by
  rw [tidy.represents.load.head_eq, List.head?_map]

theorem idle_of_head (tidy : state.Tidy view) {rest : List RecordId}
    (first : view.load = id :: rest) (present : view.records id = some record)
    (unqueued : record.status ≠ .queued) (other : RecordId) :
    view.statusOf? other ≠ some .queued := by
  intro queued
  have otherMem : other ∈ view.load := by
    rw [tidy.wellFormed.mem_load]
    rcases Option.map_eq_some_iff.mp queued with ⟨found, foundEq, _⟩
    simp [foundEq]
  rw [first] at otherMem
  have ordered := tidy.orderly.queued_first
  rw [first] at ordered
  have idQueued : view.statusOf? id = some .queued := by
    rcases List.mem_cons.mp otherMem with rfl | behind
    · exact queued
    · exact (List.pairwise_cons.mp ordered).1 other behind queued
  rw [StoreView.statusOf?_eq present, Option.some.injEq] at idQueued
  exact unqueued idQueued

theorem represents_take (tidy : state.Tidy view) (present : view.records id = some record) :
    ((state.store.setStatus id .inProgress).moveToLoadBack id).Represents
      (view.take id record) := by
  rw [← StoreView.take_eq present]
  exact (tidy.represents.setStatus id .inProgress).moveToLoadBack id

theorem nextJob (tidy : state.Tidy view) :
    state.HasEffect view .nextJob (state.perform .nextJob) := by
  simp only [CacheState.perform, CacheState.nextJob, tidy.head_of_load]
  cases loadEq : view.load with
  | nil =>
      refine ⟨view, .nothingQueued ?_, tidy.represents⟩
      intro other queued
      rcases Option.map_eq_some_iff.mp queued with ⟨found, foundEq, _⟩
      have otherMem := tidy.wellFormed.load_mem foundEq
      rw [loadEq] at otherMem
      cases otherMem
  | cons id rest =>
      have idMem : id ∈ view.load := by simp [loadEq]
      rcases tidy.wellFormed.record_of_load_mem idMem with ⟨record, present⟩
      simp only [List.head?_cons, Option.map_some, tidy.represents.recordAt?_slot present,
        tidy.represents.idAt_slot present]
      split
      · rename_i unqueued
        exact ⟨view, .nothingQueued (tidy.idle_of_head loadEq present unqueued), tidy.represents⟩
      · rename_i status
        have queued : record.status = .queued := of_not_not status
        split
        · rename_i stale
          exact ⟨_, .jobExpired loadEq present queued stale, tidy.represents_take present⟩
        · rename_i timely
          exact ⟨_, .jobStarted loadEq present queued (Nat.le_of_not_lt timely),
            tidy.represents_take present⟩

theorem evictUpTo_of_roomy (roomy : state.store.loadedCount < state.capacity) (rounds : Nat) :
    state.evictUpTo rounds = state := by
  cases rounds with
  | zero => rfl
  | succ rounds => rw [evictUpTo, if_pos roomy]

/-- The first record before the boundary is the one to be taken away. -/
theorem victim (tidy : state.Tidy view) {rest : List RecordId}
    (settledEq : view.settled = id :: rest) : state.store.leastRecentlyUsed? = some id ∧
      (state.store.remove id).2.loadedCount + 1 = state.store.loadedCount := by
  have idLoaded := tidy.orderly.settled_loaded id (by simp [settledEq])
  rcases Option.map_eq_some_iff.mp idLoaded with ⟨record, present, loaded⟩
  have removedCount := StoreView.count_remove tidy.wellFormed present .loaded
  rw [if_pos loaded, ← (tidy.represents.remove id).loadedCount,
    ← tidy.represents.loadedCount] at removedCount
  refine ⟨?_, removedCount⟩
  rw [tidy.represents.leastRecentlyUsed?_eq, StoreView.recency, settledEq]
  simp [idLoaded]

/-- At most one record has to go, because there was room for all that are loaded. -/
theorem makeRoom (tidy : state.Tidy view) : ∃ store, state.evictExcess = { state with store } ∧
    store.Represents (view.makeRoom state.capacity) := by
  have countEq := tidy.loadedCount_eq
  simp only [evictExcess, StoreView.makeRoom]
  split
  · rename_i roomy
    rw [← countEq] at roomy
    exact ⟨state.store, evictUpTo_of_roomy roomy _, tidy.represents⟩
  · rename_i crowded
    have full : view.settled.length = state.capacity :=
      Nat.le_antisymm tidy.settled_le (Nat.le_of_not_lt crowded)
    cases settledEq : view.settled with
    | nil =>
        have positive := tidy.capacity_pos
        rw [← full, settledEq] at positive
        cases positive
    | cons victim rest =>
        rcases tidy.victim settledEq with ⟨leastRecent, fewer⟩
        refine ⟨_, ?_, tidy.represents.remove victim⟩
        rw [countEq, settledEq, List.length_cons, evictUpTo, if_neg (by omega), leastRecent]
        apply evictUpTo_of_roomy
        change (state.store.remove victim).2.loadedCount < state.capacity
        omega

theorem evictExcess (tidy : state.Tidy view) :
    state.HasEffect view .evictExcess (state.perform .evictExcess) := by
  rcases tidy.makeRoom with ⟨store, evictEq, represents⟩
  simp only [CacheState.perform, evictEq]
  exact ⟨_, .evictExcess, represents⟩

/-- The last step of a load that came to its end. -/
theorem finish_eq {store : Store} (represents : store.Represents view)
    (present : view.records id = some record) (pixmap : Option Image) (status : LoadStatus) :
    ∃ finished, { state with store }.finish id pixmap status =
        (some ⟨record.subscribers, ⟨status, pixmap⟩⟩, { state with store := finished }) ∧
      finished.Represents
        (view.update id fun record => { record with pixmap, subscribers := [] }) := by
  have kept : ∀ record : Record,
      { record with pixmap, subscribers := [] : Record }.key = record.key ∧
        { record with pixmap, subscribers := [] : Record }.status = record.status :=
    fun _ => ⟨rfl, rfl⟩
  refine ⟨_, ?_, represents.update id kept⟩
  simp only [finish, represents.records, present]

/-- A load that gave a thumbnail, once there is room for it. -/
theorem land (state : CacheState) {store : Store} (represents : store.Represents view)
    (orderly : view.Orderly) (present : view.records id = some record)
    (unloaded : record.status ≠ .loaded) (pixmap : Image) : ∃ landed,
      { state with
        store := ((store.setStatus id .loaded).moveToLoadedTail id).moveToLoadBack id }.finish id
          (some pixmap) .loaded =
        (some ⟨record.subscribers, ⟨.loaded, some pixmap⟩⟩, { state with store := landed }) ∧
      landed.Represents (view.land id record pixmap) := by
  have moved := ((represents.setStatus id .loaded).moveToLoadedTail id).moveToLoadBack id
  have found : (((view.setStatus id .loaded).moveToLoadedTail id).moveToLoadBack id).records id =
      some { record with status := .loaded } := by
    simp [StoreView.setStatus, StoreView.update, StoreView.put, StoreView.moveToLoadedTail,
      StoreView.moveToLoadBack, present]
  rcases finish_eq moved found (some pixmap) .loaded with ⟨landed, finishEq, landedRepresents⟩
  rw [StoreView.land_eq present (orderly.not_mem_settled present unloaded)] at landedRepresents
  exact ⟨landed, finishEq, landedRepresents⟩

theorem fail (tidy : state.Tidy view) (present : view.records id = some record)
    (pixmap : Option Image) : ∃ failed,
      { state with
        store := (state.store.setStatus id .loadFailed).moveToLoadBack id }.finish id pixmap
          .loadFailed =
        (some ⟨record.subscribers, ⟨.loadFailed, pixmap⟩⟩, { state with store := failed }) ∧
      failed.Represents (view.fail id record pixmap) := by
  have moved := (tidy.represents.setStatus id .loadFailed).moveToLoadBack id
  have found : ((view.setStatus id .loadFailed).moveToLoadBack id).records id =
      some { record with status := .loadFailed } := by
    simp [StoreView.setStatus, StoreView.update, StoreView.put, StoreView.moveToLoadBack, present]
  rcases finish_eq moved found pixmap .loadFailed with ⟨failed, finishEq, failedRepresents⟩
  rw [StoreView.fail_eq present] at failedRepresents
  exact ⟨failed, finishEq, failedRepresents⟩

theorem complete (tidy : state.Tidy view) (result : LoadResult) :
    state.HasEffect view (.complete result) (state.perform (.complete result)) := by
  rcases result with ⟨id, status, pixmap⟩
  simp only [CacheState.perform, CacheState.complete]
  by_cases closing : state.shuttingDown = true
  · rw [if_pos closing]
    exact ⟨view, .resultDropped (.inl closing), tidy.represents⟩
  · rw [if_neg closing, tidy.represents.records]
    have running : state.shuttingDown = false := by simpa using closing
    cases present : view.records id with
    | none =>
        refine ⟨view, .resultDropped (.inr ?_), tidy.represents⟩
        simp [StoreView.statusOf?, present]
    | some record =>
        simp only
        by_cases inProgress : record.status = .inProgress
        · have unloaded : record.status ≠ .loaded := by simp [inProgress]
          rw [if_neg (not_not_intro inProgress)]
          cases status with
          | requestExpired =>
              have removed := tidy.represents.remove id
              simp only [tidy.represents.remove_fst, present, Option.map_some]
              exact ⟨_, .resultExpired running present inProgress, removed⟩
          | loadFailed =>
              rcases tidy.fail present pixmap with ⟨failed, finishEq, represents⟩
              simp only [finishEq]
              exact ⟨_, .resultFailed running present inProgress (.inl rfl), represents⟩
          | loaded =>
              cases pixmap with
              | none =>
                  rcases tidy.fail present none with ⟨failed, finishEq, represents⟩
                  simp only [finishEq]
                  exact ⟨_, .resultFailed running present inProgress (.inr ⟨rfl, rfl⟩), represents⟩
              | some pixmap =>
                  rcases tidy.makeRoom with ⟨roomy, evictEq, roomyRepresents⟩
                  have kept := tidy.orderly.records_makeRoom present unloaded state.capacity
                  have roomyOrderly := tidy.orderly.makeRoom tidy.wellFormed state.capacity
                  rcases land state roomyRepresents roomyOrderly kept unloaded pixmap with
                    ⟨landed, finishEq, represents⟩
                  simp only [evictEq, finishEq]
                  exact ⟨_, .resultLanded running present inProgress, represents⟩
        · rw [if_pos inProgress]
          refine ⟨view, .resultDropped (.inr ?_), tidy.represents⟩
          simpa [StoreView.statusOf?, present] using inProgress

theorem changeDirectory (tidy : state.Tidy view) (directory : Path) :
    state.HasEffect view (.changeDirectory directory)
      (state.perform (.changeDirectory directory)) := by
  simp only [CacheState.perform, CacheState.changeDirectory]
  cases same : directory.sameComponents state.directory with
  | true => exact ⟨view, .directoryKept same, tidy.represents⟩
  | false =>
      refine ⟨view, .directoryChanged same, ?_⟩
      simpa using tidy.represents

theorem forgetFinished (tidy : state.Tidy view) (key : ThumbnailKey) :
    state.HasEffect view (.forgetFinished key) (state.perform (.forgetFinished key)) := by
  simp only [CacheState.perform, CacheState.forgetFinished, tidy.represents.names,
    tidy.represents.records]
  cases named : view.names key with
  | none =>
      refine ⟨view, .nothingFinished ?_, tidy.represents⟩
      intro id record otherNamed
      cases named.symm.trans otherNamed
  | some id =>
      rcases tidy.wellFormed.record_of_name named with ⟨record, present⟩
      simp only [present]
      split
      · rename_i finished
        exact ⟨_, .forgotten named present finished, tidy.represents.remove id⟩
      · rename_i unfinished
        refine ⟨view, .nothingFinished ?_, tidy.represents⟩
        intro other found otherNamed otherPresent
        cases named.symm.trans otherNamed
        cases present.symm.trans otherPresent
        simpa using unfinished

/-- Every call has one of the effects. -/
theorem effect (tidy : state.Tidy view) (call : CacheCall) :
    state.HasEffect view call (state.perform call) := by
  cases call with
  | request key generator subscriber => exact tidy.request key generator subscriber
  | lookup key => exact tidy.lookup key
  | peek key => exact tidy.peek key
  | nextJob => exact tidy.nextJob
  | complete result => exact tidy.complete result
  | changeDirectory directory => exact tidy.changeDirectory directory
  | expireQueued =>
      refine ⟨view, .expireQueued, ?_⟩
      simpa [CacheState.perform] using tidy.represents
  | evictExcess => exact tidy.evictExcess
  | forgetFinished key => exact tidy.forgetFinished key
  | loaderLost => exact ⟨view, .loaderLost, tidy.represents⟩
  | shutDown => exact ⟨view, .shutDown, tidy.represents⟩

end Tidy

end CacheState

end Thumbnails
