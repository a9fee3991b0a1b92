import Mathlib.Logic.Relation
import Thumbnails.Proofs.Cache.Lifecycle
import Thumbnails.Proofs.Cache.LruCache
import Thumbnails.Proofs.Cache.Tidy

/-!
# Recency

When a record was used last is not kept anywhere. All there is to it is a place in the recency
order, on one side of a boundary, and on the other side are records that were not loaded yet.
`CacheState.Keeps` says that this is enough: the loaded records of a cache are what an `LruCache`
holds that was fed with the same events, in the same order, and the record that makes room for
another one is the one whose last use is longest ago.
-/

namespace Thumbnails

/-- An answer with a thumbnail uses what belongs to the key. -/
def RequestStatus.hit? (key : ThumbnailKey) : RequestStatus → Option LruEvent
  | .loaded _ => some (.hit key)
  | _ => none

/-- A thumbnail lands if the cache runs and the record of the name waits for it. -/
def CacheState.landing? (state : CacheState) (id : RecordId) (pixmap : Image) : Option LruEvent :=
  if state.shuttingDown then none
  else
    match state.store.get? id with
    | none => none
    | some record =>
      if record.status = .inProgress then some (.landed record.key pixmap) else none

/-- What a call means to the loaded records. -/
def CacheCall.lruEvent? (state : CacheState) : CacheCall → CacheAnswer → Option LruEvent
  | .request key _ _, .status status _ => status.hit? key
  | .lookup key, .found status => status.bind (RequestStatus.hit? key)
  | .peek key, .shown status => status.hit? key
  | .complete ⟨id, .loaded, some pixmap⟩, _ => state.landing? id pixmap
  | .forgetFinished key, _ => some (.forgotten key)
  | .evictExcess, _ => some .trimmed
  | _, _ => none

def Record.loadedContent? (record : Record) : Option (ThumbnailKey × Option Image) :=
  if record.status = .loaded then some (record.key, record.pixmap) else none

/-- Whether a call can take a record away only to make room. -/
def CacheCall.MakesRoom (id : RecordId) : CacheCall → Prop
  | .evictExcess => True
  | .complete result => result.id ≠ id
  | _ => False

def CacheEvent.lruEvent? (event : CacheEvent) : Option LruEvent :=
  event.call.lruEvent? event.before event.answer

namespace LruCache

variable {capacity : Nat}

def feed (cache : LruCache capacity) : Option LruEvent → LruCache capacity
  | none => cache
  | some event => cache.apply event

theorem after_feed (capacity : Nat) (events : List LruEvent) (event : Option LruEvent) :
    after capacity (events ++ event.toList) = (after capacity events).feed event := by
  cases event with
  | none => simp [feed]
  | some event => exact after_concat capacity events event

end LruCache

namespace StoreView

/-- The key and the pixmap of a record that has one. -/
def content? (view : StoreView) (id : RecordId) : Option (ThumbnailKey × Image) :=
  (view.records id).bind fun record => record.pixmap.map fun pixmap => (record.key, pixmap)

/-- What is before the boundary are some entries, in this order. -/
def Holds (view : StoreView) (entries : List (ThumbnailKey × Image)) : Prop :=
  view.settled.map view.content? = entries.map some

variable {view next : StoreView} {entries : List (ThumbnailKey × Image)} {id other : RecordId}
  {record : Record} {pixmap : Image} {key : ThumbnailKey} {capacity : Nat}

theorem content?_eq_some_iff {entry : ThumbnailKey × Image} : view.content? id = some entry ↔
    ∃ record, view.records id = some record ∧ record.key = entry.1 ∧
      record.pixmap = some entry.2 := by
  rcases entry with ⟨key, pixmap⟩
  cases present : view.records id with
  | none => simp [content?, present]
  | some record => cases pixmapEq : record.pixmap <;> simp [content?, present, pixmapEq]

theorem key_of_content? (present : view.records id = some record)
    {entry : ThumbnailKey × Image} (entryEq : view.content? id = some entry) :
    entry.1 = record.key := by
  rcases content?_eq_some_iff.mp entryEq with ⟨found, foundEq, keyEq, _⟩
  cases present.symm.trans foundEq
  exact keyEq.symm

theorem map_content?_congr {ids : List RecordId}
    (same : ∀ id ∈ ids, next.records id = view.records id) :
    ids.map next.content? = ids.map view.content? := by
  apply List.map_congr_left
  intro id idMem
  rw [content?, same id idMem, content?]

namespace Holds

theorem length_eq (holds : view.Holds entries) : view.settled.length = entries.length := by
  have lengths := congrArg List.length holds
  rwa [List.length_map, List.length_map] at lengths

/-- A record that is not before the boundary may change. -/
theorem outside (holds : view.Holds entries) (absent : id ∉ view.settled)
    (settledEq : next.settled = view.settled)
    (others : ∀ other, other ≠ id → next.records other = view.records other) :
    next.Holds entries := by
  have same : ∀ other ∈ view.settled, next.records other = view.records other := by
    intro other otherMem
    apply others
    rintro rfl
    exact absent otherMem
  rw [Holds, settledEq, map_content?_congr same]
  exact holds

theorem content?_of_mem (holds : view.Holds entries) (settled : id ∈ view.settled) :
    ∃ entry ∈ entries, view.content? id = some entry := by
  have entryMem : view.content? id ∈ view.settled.map view.content? := List.mem_map_of_mem settled
  rw [holds] at entryMem
  rcases List.mem_map.mp entryMem with ⟨entry, entryMem, entryEq⟩
  exact ⟨entry, entryMem, entryEq.symm⟩

theorem mem_of_entry (holds : view.Holds entries) {entry : ThumbnailKey × Image}
    (entryMem : entry ∈ entries) : ∃ id ∈ view.settled, view.content? id = some entry := by
  have entryMem : some entry ∈ entries.map some := List.mem_map_of_mem entryMem
  rw [← holds] at entryMem
  exact List.mem_map.mp entryMem

/-- What is before the boundary is in the order of the last uses, if the entries are. -/
theorem sorted (holds : view.Holds entries) {events : List LruEvent}
    (sorted : LruCache.SortedByUse events entries) : view.settled.Pairwise fun id other =>
      ∀ record found, view.records id = some record → view.records other = some found →
        lastUse events record.key < lastUse events found.key := by
  have mapped : (entries.map some).Pairwise fun left right => ∀ entry other,
      left = some entry → right = some other →
        lastUse events entry.1 < lastUse events other.1 := by
    apply List.pairwise_map.mpr
    apply sorted.imp
    rintro entry other earlier _ _ ⟨⟩ ⟨⟩
    exact earlier
  rw [← holds] at mapped
  apply (List.pairwise_map.mp mapped).imp_of_mem
  intro id other idMem otherMem earlier record found present otherPresent
  rcases holds.content?_of_mem idMem with ⟨entry, _, entryEq⟩
  rcases holds.content?_of_mem otherMem with ⟨otherEntry, _, otherEntryEq⟩
  have keyEq := key_of_content? present entryEq
  have otherKeyEq := key_of_content? otherPresent otherEntryEq
  rw [← keyEq, ← otherKeyEq]
  exact earlier entry otherEntry entryEq otherEntryEq

/-- Without a record, what is before the boundary is what the other keys have. -/
theorem erase (holds : view.Holds entries) (wellFormed : view.WellFormed)
    (present : view.records id = some record) :
    (view.settled.erase id).map view.content? =
      (entries.filter fun entry => entry.1 ≠ record.key).map some := by
  have others : ∀ other ∈ view.settled, (other != id) =
      decide ((view.content? other).map Prod.fst ≠ some record.key) := by
    intro other settled
    rcases holds.content?_of_mem settled with ⟨entry, _, entryEq⟩
    rcases content?_eq_some_iff.mp entryEq with ⟨found, foundEq, keyEq, _⟩
    have same : other = id ↔ entry.1 = record.key := by
      rw [← keyEq]
      constructor
      · rintro rfl
        cases foundEq.symm.trans present
        rfl
      · exact wellFormed.id_eq_of_key_eq foundEq present
    simp [entryEq, bne, ← same, Bool.beq_eq_decide_eq]
  calc (view.settled.erase id).map view.content?
      = (view.settled.filter ((fun entry : Option (ThumbnailKey × Image) =>
          decide (entry.map Prod.fst ≠ some record.key)) ∘ view.content?)).map view.content? := by
        rw [wellFormed.settled_nodup.erase_eq_filter, List.filter_congr others]
        rfl
    _ = (entries.map some).filter fun entry =>
          decide (entry.map Prod.fst ≠ some record.key) := by
        rw [← List.filter_map, holds]
    _ = (entries.filter fun entry => entry.1 ≠ record.key).map some := by
        rw [List.filter_map]
        simp [Function.comp_def]

theorem refresh (holds : view.Holds entries) (wellFormed : view.WellFormed)
    (present : view.records id = some record) (pixmapEq : record.pixmap = some pixmap) :
    (view.refresh id).Holds
      ((entries.filter fun entry => entry.1 ≠ record.key) ++ [(record.key, pixmap)]) := by
  have entryEq : view.content? id = some (record.key, pixmap) :=
    content?_eq_some_iff.mpr ⟨record, present, rfl, pixmapEq⟩
  change (view.settled.erase id ++ [id]).map view.content? = _
  rw [List.map_append, holds.erase wellFormed present, List.map_append, List.map_singleton,
    entryEq, List.map_singleton]

theorem remove (holds : view.Holds entries) (wellFormed : view.WellFormed)
    (present : view.records id = some record) :
    (view.remove id).Holds (entries.filter fun entry => entry.1 ≠ record.key) := by
  have others : ∀ other ∈ view.settled.erase id,
      (view.remove id).records other = view.records other := by
    intro other otherMem
    exact records_remove_of_ne (wellFormed.settled_nodup.mem_erase_iff.mp otherMem).1
  have settledEq : (view.remove id).settled = view.settled.erase id := by rw [remove_eq present]
  rw [Holds, settledEq, map_content?_congr others]
  exact holds.erase wellFormed present

/-- A key without a finished record has no entry that could be deleted. -/
theorem delete_absent {cache : LruCache capacity} (holds : view.Holds cache.entries)
    (wellFormed : view.WellFormed) (orderly : view.Orderly)
    (unfinished : ∀ id record, view.names key = some id → view.records id = some record →
      record.status.isFinished = false) : view.Holds (cache.delete key).entries := by
  have others : (cache.delete key).entries = cache.entries := by
    apply List.filter_eq_self.mpr
    intro entry entryMem
    rcases holds.mem_of_entry entryMem with ⟨id, settled, entryEq⟩
    rcases content?_eq_some_iff.mp entryEq with ⟨record, present, keyEq, _⟩
    have named := wellFormed.names_eq present
    have loaded := orderly.settled_loaded id settled
    rw [statusOf?_eq present, Option.some.injEq] at loaded
    rw [keyEq] at named
    have different : entry.1 ≠ key := by
      rintro rfl
      have waiting := unfinished id record named present
      rw [loaded] at waiting
      cases waiting
    simpa using different
  rwa [others]

theorem makeRoom {cache : LruCache capacity} (holds : view.Holds cache.entries)
    (wellFormed : view.WellFormed) : (view.makeRoom capacity).Holds cache.evict.entries := by
  simp only [StoreView.makeRoom, LruCache.evict, holds.length_eq]
  split
  · exact holds
  · cases settledEq : view.settled with
    | nil =>
        have empty : cache.entries = [] := by
          rw [← List.length_eq_zero_iff, ← holds.length_eq, settledEq, List.length_nil]
        rwa [empty, List.tail_nil, ← empty]
    | cons victim rest =>
        have nodup := wellFormed.settled_nodup
        rw [settledEq] at nodup
        have victimMem : victim ∈ view.settled := by simp [settledEq]
        rcases wellFormed.record_of_settled_mem victimMem with ⟨record, present⟩
        have others : ∀ other ∈ rest, (view.remove victim).records other = view.records other := by
          intro other otherMem
          apply records_remove_of_ne
          rintro rfl
          exact (List.nodup_cons.mp nodup).1 otherMem
        have restEq : (view.remove victim).settled = rest := by
          rw [remove_eq present, settledEq, List.erase_cons_head]
        rw [Holds, restEq, map_content?_congr others, List.map_tail, ← holds, settledEq]
        rfl

theorem land (holds : view.Holds entries) (absent : id ∉ view.settled) (record : Record)
    (pixmap : Image) :
    (view.land id record pixmap).Holds (entries ++ [(record.key, pixmap)]) := by
  have others : ∀ other ∈ view.settled,
      (view.land id record pixmap).records other = view.records other := by
    intro other otherMem
    rw [records_land, if_neg]
    rintro rfl
    exact absent otherMem
  have entryEq : (view.land id record pixmap).content? id = some (record.key, pixmap) := by
    apply content?_eq_some_iff.mpr
    exact ⟨record.landed pixmap, by rw [records_land, if_pos rfl], rfl, rfl⟩
  change (view.settled ++ [id]).map _ = _
  rw [List.map_append, map_content?_congr others, holds, List.map_append, List.map_singleton,
    entryEq, List.map_singleton]

end Holds

/-- What memory has for a key is in a cache that was fed with the same events. -/
theorem Answers.holds {cache : LruCache capacity} {events : List LruEvent}
    {status : Option RequestStatus} (answers : view.Answers key status next)
    (wellFormed : view.WellFormed) (orderly : view.Orderly) (holds : view.Holds cache.entries)
    (sorted : LruCache.SortedByUse events cache.entries) :
    next.Holds (cache.feed (status.bind (RequestStatus.hit? key))).entries := by
  cases answers with
  | hit named present loaded pixmapEq =>
      rename_i id record pixmap
      have keyEq := wellFormed.key_eq named present
      have settled := orderly.mem_settled wellFormed present loaded
      rcases holds.content?_of_mem settled with ⟨entry, entryMem, entryEq⟩
      have own : view.content? id = some (record.key, pixmap) :=
        content?_eq_some_iff.mpr ⟨record, present, rfl, pixmapEq⟩
      rw [Option.some.inj (entryEq.symm.trans own)] at entryMem
      have found := (LruCache.find?_eq_some_iff sorted).mpr entryMem
      change (view.refresh id).Holds (cache.use key).entries
      simp only [← keyEq, LruCache.use, found]
      exact holds.refresh wellFormed present pixmapEq
  | failed => exact holds
  | waiting => exact holds
  | absent => exact holds

/-- Memory answers with a thumbnail if and only if the record of the key is loaded with it. -/
theorem Answers.loaded_iff {status : Option RequestStatus}
    (answers : view.Answers key status next) :
    status = some (.loaded pixmap) ↔ ∃ id record, view.names key = some id ∧
      view.records id = some record ∧ record.status = .loaded ∧ record.pixmap = some pixmap := by
  constructor
  · intro statusEq
    cases answers with
    | hit named present loaded pixmapEq =>
        cases statusEq
        exact ⟨_, _, named, present, loaded, pixmapEq⟩
    | _ => cases statusEq
  · rintro ⟨id, record, named, present, loaded, pixmapEq⟩
    cases answers with
    | hit otherNamed otherPresent otherLoaded otherPixmapEq =>
        cases named.symm.trans otherNamed
        cases present.symm.trans otherPresent
        cases pixmapEq.symm.trans otherPixmapEq
        rfl
    | failed otherNamed otherPresent failed =>
        cases named.symm.trans otherNamed
        cases present.symm.trans otherPresent
        cases loaded.symm.trans failed
    | waiting otherNamed otherPresent waiting =>
        cases named.symm.trans otherNamed
        cases present.symm.trans otherPresent
        rw [loaded] at waiting
        cases waiting
    | absent unnamed => cases named.symm.trans unnamed

/-- A record that makes room is the first one. -/
theorem settled_of_makeRoom (present : view.records id = some record)
    (gone : (view.makeRoom capacity).records id = none) : ∃ rest, view.settled = id :: rest := by
  rcases view.makeRoom_cases capacity with unchanged | ⟨victim, rest, settledEq, removed⟩
  · rw [unchanged, present] at gone
    cases gone
  · rw [removed, records_remove] at gone
    split at gone
    · rename_i same
      exact ⟨rest, by rw [settledEq, same]⟩
    · rw [present] at gone
      cases gone

end StoreView

namespace CacheState

variable {state after : CacheState} {view next : StoreView} {call : CacheCall}
  {answer : CacheAnswer} {id : RecordId} {record : Record} {key : ThumbnailKey} {capacity : Nat}

/-- A result that is dropped does not land. -/
theorem Tidy.lruEvent?_of_dropped (tidy : state.Tidy view) {result : LoadResult}
    (dropped : state.shuttingDown = true ∨ view.statusOf? result.id ≠ some .inProgress) :
    (CacheCall.complete result).lruEvent? state answer = none := by
  have nothing : ∀ pixmap, state.landing? result.id pixmap = none := by
    intro pixmap
    rcases dropped with closing | other
    · rw [landing?, if_pos closing]
    · simp only [landing?, tidy.represents.records]
      split
      · rfl
      · split
        · rfl
        · rename_i record present
          rw [StoreView.statusOf?_eq present, ne_eq, Option.some.injEq] at other
          exact if_neg other
  rcases result with ⟨id, status, pixmap⟩
  cases status with
  | loaded =>
      cases pixmap with
      | none => rfl
      | some pixmap => exact nothing pixmap
  | loadFailed => rfl
  | requestExpired => rfl

/-- A call means the same to the loaded records and to a cache ordered by last use. -/
theorem Effect.holds {cache : LruCache capacity} {events : List LruEvent}
    (effect : state.Effect view call answer after next) (tidy : state.Tidy view)
    (capacityEq : state.capacity = capacity) (holds : view.Holds cache.entries)
    (sorted : LruCache.SortedByUse events cache.entries) :
    next.Holds (cache.feed (call.lruEvent? state answer)).entries := by
  subst capacityEq
  have wellFormed := tidy.wellFormed
  have orderly := tidy.orderly
  have unsettled : ∀ {id record}, view.records id = some record → record.status ≠ .loaded →
      id ∉ view.settled := orderly.not_mem_settled
  cases effect with
  | requestAnswered running answers => exact answers.holds wellFormed orderly holds sorted
  | lookup answers => exact answers.holds wellFormed orderly holds sorted
  | peekAnswered running answers =>
      rename_i key status _
      have hitEq : (status.getD (.loadFailed none)).hit? key =
          status.bind (RequestStatus.hit? key) := by cases status <;> rfl
      have nextHolds := answers.holds wellFormed orderly holds sorted
      rwa [← hitEq] at nextHolds
  | requestJoined running named present waiting =>
      have absent := unsettled present (RecordStatus.ne_of_isFinished rfl waiting).symm
      exact holds.outside absent rfl fun _ different => Function.update_of_ne different _ _
  | requestCreated running unnamed fresh =>
      have absent := mt (List.mem_append_left view.pending) (wellFormed.not_mem_recency fresh)
      exact holds.outside absent rfl fun _ different => Function.update_of_ne different _ _
  | jobExpired first present queued stale =>
      have absent := unsettled present (by simp [queued])
      exact holds.outside absent rfl fun _ different => Function.update_of_ne different _ _
  | jobStarted first present queued timely =>
      have absent := unsettled present (by simp [queued])
      exact holds.outside absent rfl fun _ different => Function.update_of_ne different _ _
  | resultLanded running present inProgress =>
      rename_i id record pixmap _
      have unloaded : record.status ≠ .loaded := by simp [inProgress]
      have deleted := holds.erase wellFormed present
      rw [List.erase_of_not_mem (unsettled present unloaded)] at deleted
      have deletedHolds : view.Holds (cache.delete record.key).entries := deleted
      have roomy := deletedHolds.makeRoom wellFormed
      have kept := orderly.records_makeRoom present unloaded state.capacity
      have absent := (orderly.makeRoom wellFormed state.capacity).not_mem_settled kept unloaded
      have landing : state.landing? id pixmap = some (.landed record.key pixmap) := by
        simp [landing?, running, tidy.represents.records, present, inProgress]
      change StoreView.Holds _ (cache.feed (state.landing? id pixmap)).entries
      rw [landing]
      exact roomy.land absent record pixmap
  | resultExpired running present inProgress =>
      rename_i id _ _ _
      have absent := unsettled present (by simp [inProgress])
      have settledEq : (view.remove id).settled = view.settled := by
        rw [StoreView.remove_eq present, List.erase_of_not_mem absent]
      exact holds.outside absent settledEq fun _ different =>
        StoreView.records_remove_of_ne different
  | resultFailed running present inProgress failed =>
      have absent := unsettled present (by simp [inProgress])
      rcases failed with rfl | ⟨rfl, rfl⟩
      · exact holds.outside absent rfl fun _ different => Function.update_of_ne different _ _
      · exact holds.outside absent rfl fun _ different => Function.update_of_ne different _ _
  | resultDropped dropped =>
      rw [tidy.lruEvent?_of_dropped dropped]
      exact holds
  | evictExcess =>
      change (view.makeRoom state.capacity).Holds cache.trim.entries
      have fits := tidy.settled_le
      rw [holds.length_eq] at fits
      rw [LruCache.trim_eq_evict tidy.capacity_pos fits]
      exact holds.makeRoom wellFormed
  | nothingFinished unfinished => exact holds.delete_absent wellFormed orderly unfinished
  | forgotten named present finished =>
      have removed := holds.remove wellFormed present
      rwa [wellFormed.key_eq named present] at removed
  | _ => exact holds

/-- What some calls meant to the loaded records. -/
def lruEvents (history : List CacheEvent) : List LruEvent :=
  history.filterMap CacheEvent.lruEvent?

theorem lruEvents_concat (history : List CacheEvent) (event : CacheEvent) :
    lruEvents (history ++ [event]) = lruEvents history ++ event.lruEvent?.toList := by
  rw [lruEvents, List.filterMap_append]
  cases eventEq : event.lruEvent? <;> simp [lruEvents, eventEq]

theorem holds_after (config : Config) (directory : Path) (calls : List CacheCall) :
    ∃ view, ((new config directory).after calls).Tidy view ∧
      view.Holds (LruCache.after (max config.maxCachedPixmaps.toNat 1)
        (lruEvents ((new config directory).history calls))).entries := by
  induction calls using List.reverseRecOn with
  | nil => exact ⟨_, Tidy.new config directory, rfl⟩
  | append_singleton calls call ih =>
      rcases ih with ⟨view, tidy, holds⟩
      rcases tidy.perform call with ⟨next, effect, nextTidy⟩
      have sorted := LruCache.sorted_after (max config.maxCachedPixmaps.toNat 1)
        (lruEvents ((new config directory).history calls))
      rw [after_concat, history_concat, lruEvents_concat, LruCache.after_feed]
      exact ⟨next, nextTidy,
        effect.holds tidy (capacity_after config directory calls) holds sorted⟩

/-- The keys and pixmaps of the loaded records, in the recency order. -/
def loadedEntries (state : CacheState) : List (ThumbnailKey × Option Image) :=
  state.store.recencyOrder.filterMap fun id => (state.store.get? id).bind Record.loadedContent?

/-- One round of making room. -/
def Evicts (state next : CacheState) : Prop :=
  state.capacity ≤ state.store.loadedCount ∧ ∃ victim,
    state.store.leastRecentlyUsed? = some victim ∧
      next = { state with store := (state.store.remove victim).2 }

/-- A cache keeps what a cache ordered by last use holds after the same events. -/
structure Keeps (state : CacheState) (capacity : Nat) (events : List LruEvent) : Prop where
  entries : state.loadedEntries =
    (LruCache.after capacity events).entries.map fun entry => (entry.1, some entry.2)
  sorted : LruCache.SortedByUse events (LruCache.after capacity events).entries
  fits : (LruCache.after capacity events).entries.length ≤ capacity
  lookup : ∀ key pixmap, (state.lookup key).1 = some (.loaded pixmap) ↔
    (LruCache.after capacity events).find? key = some pixmap
  request : state.shuttingDown = false → ∀ key generator subscriber pixmap,
    (state.request key generator subscriber).1 = .loaded pixmap ↔
      (LruCache.after capacity events).find? key = some pixmap
  peek : state.shuttingDown = false → ∀ key pixmap, (state.peek key).1 = .loaded pixmap ↔
    (LruCache.after capacity events).find? key = some pixmap
  /-- A record that has to make room is loaded, and its last use is longest ago. -/
  evicted : ∀ call id record, call.MakesRoom id → state.store.get? id = some record →
    (state.perform call).2.store.get? id = none → record.status = .loaded ∧
      ∀ other found, state.store.get? other = some found → found.status = .loaded → other ≠ id →
        lastUse events record.key < lastUse events found.key
  /-- Round by round, the loop gets to the point where there is room. -/
  evictExcess : Relation.ReflTransGen Evicts state state.evictExcess ∧
    state.evictExcess.store.loadedCount < capacity
  /-- As long as there is no room, there is a record to be taken away, and one fewer after it. -/
  rounds : ∀ middle, Relation.ReflTransGen Evicts state middle →
    capacity ≤ middle.store.loadedCount → ∃ victim,
      middle.store.leastRecentlyUsed? = some victim ∧
        (middle.store.remove victim).2.loadedCount + 1 = middle.store.loadedCount

namespace Tidy

theorem loadedEntries_eq (tidy : state.Tidy view) {entries : List (ThumbnailKey × Image)}
    (holds : view.Holds entries) :
    state.loadedEntries = entries.map fun entry => (entry.1, some entry.2) := by
  simp only [loadedEntries, tidy.represents.recencyOrder_eq, tidy.represents.records]
  have pending : view.pending.filterMap (fun id => (view.records id).bind Record.loadedContent?) =
      [] := by
    apply List.filterMap_eq_nil_iff.mpr
    intro id pending
    have unloaded := tidy.orderly.pending_unloaded id pending
    cases present : view.records id with
    | none => rfl
    | some record =>
        rw [StoreView.statusOf?_eq present] at unloaded
        simpa [Record.loadedContent?] using unloaded
  have settled : ∀ id ∈ view.settled, (view.records id).bind Record.loadedContent? =
      (view.content? id).map fun entry => (entry.1, some entry.2) := by
    intro id settled
    rcases holds.content?_of_mem settled with ⟨entry, _, entryEq⟩
    rcases StoreView.content?_eq_some_iff.mp entryEq with ⟨record, present, keyEq, pixmapEq⟩
    have loaded := tidy.orderly.settled_loaded id settled
    rw [StoreView.statusOf?_eq present, Option.some.injEq] at loaded
    simp [entryEq, present, Record.loadedContent?, loaded, keyEq, pixmapEq]
  calc view.recency.filterMap (fun id => (view.records id).bind Record.loadedContent?)
      = view.settled.filterMap fun id =>
          (view.content? id).map fun entry => (entry.1, some entry.2) := by
        rw [StoreView.recency, List.filterMap_append, pending, List.append_nil,
          List.filterMap_congr settled]
    _ = (entries.map some).filterMap (Option.map fun entry => (entry.1, some entry.2)) := by
        rw [← holds, List.filterMap_map]
        rfl
    _ = entries.map fun entry => (entry.1, some entry.2) := by
        simp [List.filterMap_map]

/-- Memory has a thumbnail for a key if and only if a cache ordered by last use has it. -/
theorem lookup_loaded_iff {cache : LruCache capacity} {events : List LruEvent} {pixmap : Image}
    (tidy : state.Tidy view) (holds : view.Holds cache.entries)
    (sorted : LruCache.SortedByUse events cache.entries) :
    (state.lookup key).1 = some (.loaded pixmap) ↔ cache.find? key = some pixmap := by
  rcases tidy.answer_lookup key with ⟨status, store, next, lookupEq, _, answers⟩
  rw [LruCache.find?_eq_some_iff sorted, lookupEq, answers.loaded_iff]
  constructor
  · rintro ⟨id, record, named, present, loaded, pixmapEq⟩
    have settled := tidy.orderly.mem_settled tidy.wellFormed present loaded
    rcases holds.content?_of_mem settled with ⟨entry, entryMem, entryEq⟩
    have own : view.content? id = some (key, pixmap) := by
      apply StoreView.content?_eq_some_iff.mpr
      exact ⟨record, present, tidy.wellFormed.key_eq named present, pixmapEq⟩
    rwa [Option.some.inj (entryEq.symm.trans own)] at entryMem
  · intro entryMem
    rcases holds.mem_of_entry entryMem with ⟨id, settled, entryEq⟩
    rcases StoreView.content?_eq_some_iff.mp entryEq with ⟨record, present, keyEq, pixmapEq⟩
    have named := tidy.wellFormed.names_eq present
    have loaded := tidy.orderly.settled_loaded id settled
    rw [StoreView.statusOf?_eq present, Option.some.injEq] at loaded
    rw [keyEq] at named
    exact ⟨id, record, named, present, loaded, pixmapEq⟩

theorem request_loaded_iff (running : state.shuttingDown = false) {generator : Generator}
    {subscriber : SubscriberId} {pixmap : Image} :
    (state.request key generator subscriber).1 = .loaded pixmap ↔
      (state.lookup key).1 = some (.loaded pixmap) := by
  simp only [CacheState.request, running, Bool.false_eq_true, if_false]
  rcases state.lookup key with ⟨_ | status, used⟩
  · cases state.store.find? key <;> simp
  · simp

theorem peek_loaded_iff (running : state.shuttingDown = false) {pixmap : Image} :
    (state.peek key).1 = .loaded pixmap ↔ (state.lookup key).1 = some (.loaded pixmap) := by
  simp only [CacheState.peek, running, Bool.false_eq_true, if_false]
  rcases state.lookup key with ⟨_ | status, used⟩ <;> simp

/-- Without room there is a record to be taken away, and it leaves a tidy state. -/
theorem crowded (tidy : state.Tidy view) (crowded : state.capacity ≤ state.store.loadedCount) :
    ∃ victim, state.store.leastRecentlyUsed? = some victim ∧
      (state.store.remove victim).2.loadedCount + 1 = state.store.loadedCount ∧
      ({ state with store := (state.store.remove victim).2 } : CacheState).Tidy
        (view.remove victim) := by
  cases settledEq : view.settled with
  | nil =>
      have countEq := tidy.loadedCount_eq
      have positive := tidy.capacity_pos
      rw [settledEq, List.length_nil] at countEq
      omega
  | cons victim rest =>
      rcases tidy.victim settledEq with ⟨leastRecent, fewer⟩
      refine ⟨victim, leastRecent, fewer, tidy.represents.remove victim, ?_, tidy.capacity_pos, ?_⟩
      · exact tidy.orderly.remove tidy.wellFormed victim
      · exact Nat.le_trans (view.settled_length_remove_le victim) tidy.settled_le

/-- Every round leaves a tidy state, with the same capacity. -/
theorem rounds (tidy : state.Tidy view) {middle : CacheState}
    (rounds : Relation.ReflTransGen Evicts state middle) :
    (∃ left, middle.Tidy left) ∧ middle.capacity = state.capacity := by
  induction rounds with
  | refl => exact ⟨⟨view, tidy⟩, rfl⟩
  | tail _ round ih =>
      rcases ih with ⟨⟨left, leftTidy⟩, capacityEq⟩
      rcases round with ⟨full, victim, leastRecent, rfl⟩
      rcases leftTidy.crowded full with ⟨other, otherEq, _, nextTidy⟩
      cases leastRecent.symm.trans otherEq
      exact ⟨⟨_, nextTidy⟩, capacityEq⟩

/-- Enough rounds make room. -/
theorem evictUpTo (tidy : state.Tidy view) {rounds : Nat}
    (enough : state.store.loadedCount ≤ rounds) :
    Relation.ReflTransGen Evicts state (state.evictUpTo rounds) ∧
      (state.evictUpTo rounds).store.loadedCount < state.capacity := by
  induction rounds generalizing state view with
  | zero =>
      have positive := tidy.capacity_pos
      exact ⟨.refl, Nat.lt_of_le_of_lt enough positive⟩
  | succ rounds ih =>
      rw [CacheState.evictUpTo]
      split
      · exact ⟨.refl, ‹_›⟩
      · rename_i full
        rcases tidy.crowded (Nat.le_of_not_lt full) with
          ⟨victim, leastRecent, fewer, nextTidy⟩
        have round : state.Evicts { state with store := (state.store.remove victim).2 } :=
          ⟨Nat.le_of_not_lt full, victim, leastRecent, rfl⟩
        have left : (state.store.remove victim).2.loadedCount ≤ rounds := by omega
        rcases ih nextTidy left with ⟨more, roomy⟩
        simp only [leastRecent]
        exact ⟨.head round more, roomy⟩

end Tidy

/-- Only the first record before the boundary makes room. -/
theorem Effect.settled_of_gone (effect : state.Effect view call answer after next)
    (makesRoom : call.MakesRoom id) (present : view.records id = some record)
    (gone : next.records id = none) : ∃ rest, view.settled = id :: rest := by
  cases effect with
  | resultDropped dropped => cases gone.symm.trans present
  | resultLanded running otherPresent inProgress =>
      rw [StoreView.records_land, if_neg (Ne.symm makesRoom)] at gone
      exact StoreView.settled_of_makeRoom present gone
  | resultExpired running otherPresent inProgress =>
      rw [StoreView.records_remove, if_neg (Ne.symm makesRoom)] at gone
      cases gone.symm.trans present
  | resultFailed running otherPresent inProgress failed =>
      rw [StoreView.records_fail, if_neg (Ne.symm makesRoom)] at gone
      cases gone.symm.trans present
  | evictExcess => exact StoreView.settled_of_makeRoom present gone
  | _ => exact makesRoom.elim

/-- The record that makes room for another one was used before all others that are loaded. -/
theorem Tidy.evicted (tidy : state.Tidy view) {cache : LruCache capacity} {events : List LruEvent}
    (holds : view.Holds cache.entries) (sorted : LruCache.SortedByUse events cache.entries)
    (makesRoom : call.MakesRoom id) (found : state.store.get? id = some record)
    (gone : (state.perform call).2.store.get? id = none) : record.status = .loaded ∧
      ∀ other found, state.store.get? other = some found → found.status = .loaded → other ≠ id →
        lastUse events record.key < lastUse events found.key := by
  rcases tidy.perform call with ⟨next, effect, nextTidy⟩
  simp only [tidy.represents.records] at found ⊢
  rw [nextTidy.represents.records] at gone
  rcases effect.settled_of_gone makesRoom found gone with ⟨rest, settledEq⟩
  have loaded := tidy.orderly.settled_loaded id (by simp [settledEq])
  rw [StoreView.statusOf?_eq found, Option.some.injEq] at loaded
  refine ⟨loaded, ?_⟩
  intro other otherRecord otherFound otherLoaded different
  have otherSettled := tidy.orderly.mem_settled tidy.wellFormed otherFound otherLoaded
  have pairwise := holds.sorted sorted
  rw [settledEq] at otherSettled pairwise
  have behind := (List.mem_cons.mp otherSettled).resolve_left different
  exact (List.pairwise_cons.mp pairwise).1 other behind record otherRecord found otherFound

/-- Whatever a cache was set up with, what it keeps is what was used last. -/
theorem keeps_after (config : Config) (directory : Path) (calls : List CacheCall) :
    ((new config directory).after calls).Keeps (max config.maxCachedPixmaps.toNat 1)
      (lruEvents ((new config directory).history calls)) := by
  rcases holds_after config directory calls with ⟨view, tidy, holds⟩
  have capacityEq := capacity_after config directory calls
  have sorted := LruCache.sorted_after (max config.maxCachedPixmaps.toNat 1)
    (lruEvents ((new config directory).history calls))
  refine ⟨tidy.loadedEntries_eq holds, sorted, ?_, ?_, ?_, ?_, ?_, ?_, ?_⟩
  · exact LruCache.length_after_le (Nat.le_max_right _ _) _
  · intro key pixmap
    exact tidy.lookup_loaded_iff holds sorted
  · intro running key generator subscriber pixmap
    rw [Tidy.request_loaded_iff running]
    exact tidy.lookup_loaded_iff holds sorted
  · intro running key pixmap
    rw [Tidy.peek_loaded_iff running]
    exact tidy.lookup_loaded_iff holds sorted
  · intro call id record makesRoom found gone
    exact tidy.evicted holds sorted makesRoom found gone
  · rw [← capacityEq]
    exact tidy.evictUpTo (Nat.le_refl _)
  · intro middle rounds crowded
    rcases tidy.rounds rounds with ⟨⟨left, leftTidy⟩, middleCapacityEq⟩
    rw [← capacityEq, ← middleCapacityEq] at crowded
    rcases leftTidy.crowded crowded with ⟨victim, leastRecent, fewer, _⟩
    exact ⟨victim, leastRecent, fewer⟩

/-- There is room for two pages. The one that was loaded first is looked up before a third one
lands, so it is the second one that goes. -/
example :
    ((new ⟨⟨[0x2f]⟩, ⟨64, 64⟩, 2, 10, 0⟩ ⟨[0x2f]⟩).after
      [.request (letterPage 0x61) (.constant .crashed) 0,
        .request (letterPage 0x62) (.constant .crashed) 1,
        .request (letterPage 0x63) (.constant .crashed) 2, .nextJob, .nextJob, .nextJob,
        .complete ⟨⟨0, 0⟩, .loaded, some ⟨⟨1, 1⟩, .l8, [0]⟩⟩,
        .complete ⟨⟨1, 0⟩, .loaded, some ⟨⟨1, 1⟩, .l8, [0]⟩⟩, .lookup (letterPage 0x61),
        .complete ⟨⟨2, 0⟩, .loaded, some ⟨⟨1, 1⟩, .l8, [0]⟩⟩]).loadedEntries.map Prod.fst =
      [letterPage 0x61, letterPage 0x63] := by decide

end CacheState

end Thumbnails
