import Mathlib.Data.List.DropRight
import Thumbnails.Proofs.Cache.Consistency
import Thumbnails.Proofs.Cache.Lifecycle
import Thumbnails.Proofs.Cache.Ticket

/-!
# The queue

The queued records of a cache are a queue in load order. A request for one of them brings it to the
front, the loader takes the one at the front, and whatever else happens to a cache leaves the queue
as it is (`CacheState.Effect.queue_eq`).

When a record was asked for last is not kept anywhere, but the queue is in the order of these
times, the latest first. `CacheState.ServesNewest` says so of a state and what happened before, and
that the loader goes through the queue from the front until nothing is left of it.
-/

namespace Thumbnails

/-- The record that a call hands out a ticket for, if the loader has yet to take it. -/
def CacheCall.requested? (call : CacheCall) (answer : CacheAnswer) (after : CacheState) :
    Option RecordId :=
  ((call.asked answer after).head?.map Ticket.record).filter fun id =>
    after.store.statusOf? id = some .queued

namespace CacheEvent

/-- The queued record that an event asks for. It was made by the event, or it had been queued. -/
def requested? (event : CacheEvent) : Option RecordId :=
  event.call.requested? event.answer event.after

/-- The position of the last event that asks for a record while it is queued, counted from one. -/
def lastRequest (history : List CacheEvent) (id : RecordId) : Nat :=
  (history.rdropWhile fun event => event.requested? ≠ some id).length

variable {history : List CacheEvent} {event : CacheEvent} {id : RecordId}

theorem lastRequest_concat_of_requested (requested : event.requested? = some id) :
    lastRequest (history ++ [event]) id = history.length + 1 := by
  rw [lastRequest, List.rdropWhile_concat_neg]
  · simp
  · simp [requested]

theorem lastRequest_concat_of_unrequested (unrequested : event.requested? ≠ some id) :
    lastRequest (history ++ [event]) id = lastRequest history id := by
  rw [lastRequest, List.rdropWhile_concat_pos, lastRequest]
  simpa using unrequested

theorem lastRequest_le (history : List CacheEvent) (id : RecordId) :
    lastRequest history id ≤ history.length :=
  (List.rdropWhile_prefix _ history).length_le

end CacheEvent

open CacheEvent

/-- What becomes of a queue: a record that is asked for comes first, and one that is taken goes. -/
def requeue (queue : List RecordId) (requested taken : Option RecordId) : List RecordId :=
  match requested, taken with
  | some id, _ => id :: queue.erase id
  | none, some id => queue.erase id
  | none, none => queue

namespace StoreView

def queue (view : StoreView) : List RecordId :=
  view.load.filter fun id => view.statusOf? id = some .queued

variable {view next : StoreView} {id : RecordId} {record : Record}

theorem mem_queue (wellFormed : view.WellFormed) :
    id ∈ view.queue ↔ view.statusOf? id = some .queued := by
  simp only [queue, List.mem_filter, decide_eq_true_eq, and_iff_right_iff_imp]
  intro queued
  rcases Option.map_eq_some_iff.mp queued with ⟨record, present, _⟩
  exact wellFormed.load_mem present

theorem queue_nodup (wellFormed : view.WellFormed) : view.queue.Nodup :=
  wellFormed.load_nodup.filter _

/-- The queue is the same if the load order and what is queued are the same. -/
theorem queue_congr (load : next.load = view.load)
    (statuses : ∀ other, next.statusOf? other = view.statusOf? other) :
    next.queue = view.queue := by
  simp only [queue, load, statuses]

theorem filter_erase (nodup : view.load.Nodup) (id : RecordId) :
    (view.load.erase id).filter (fun other => view.statusOf? other = some .queued) =
      view.queue.erase id := by
  rw [queue, nodup.erase_eq_filter, (nodup.filter _).erase_eq_filter, List.filter_comm]

/-- A record that is not queued any more leaves the queue, wherever it goes in the load order. -/
theorem queue_eq_erase (nodup : view.load.Nodup) (nextNodup : next.load.Nodup)
    (unqueued : next.statusOf? id ≠ some .queued)
    (others : ∀ other, other ≠ id → next.statusOf? other = view.statusOf? other)
    (load : next.load.erase id = view.load.erase id) : next.queue = view.queue.erase id := by
  have absent : id ∉ next.queue := by simp [queue, unqueued]
  calc next.queue
      = next.queue.erase id := (List.erase_of_not_mem absent).symm
    _ = (view.load.erase id).filter fun other => next.statusOf? other = some .queued := by
        rw [← filter_erase nextNodup, load]
    _ = (view.load.erase id).filter fun other => view.statusOf? other = some .queued := by
        apply List.filter_congr
        intro other otherMem
        rw [others other (nodup.mem_erase_iff.mp otherMem).1]
    _ = view.queue.erase id := filter_erase nodup id

/-- A record that was not queued is not missed. -/
theorem queue_erase_of_unqueued (unqueued : view.statusOf? id ≠ some .queued) :
    view.queue.erase id = view.queue := by
  apply List.erase_of_not_mem
  simp [queue, unqueued]

theorem queue_erase_of_status (present : view.records id = some record)
    (unqueued : record.status ≠ .queued) : view.queue.erase id = view.queue := by
  apply queue_erase_of_unqueued
  rw [statusOf?_eq present]
  simpa using unqueued

theorem erase_erase_append (nodup : view.load.Nodup) (id : RecordId) :
    (view.load.erase id ++ [id]).erase id = view.load.erase id := by
  have absent : id ∉ view.load.erase id := fun idMem => (nodup.mem_erase_iff.mp idMem).1 rfl
  rw [List.erase_append_right _ absent]
  simp

theorem queue_put_back (wellFormed : view.WellFormed) (present : view.records id = some record)
    {new : Record} (unqueued : new.status ≠ .queued) :
    { view.put id new with load := view.load.erase id ++ [id] : StoreView }.queue =
      view.queue.erase id := by
  have nodup := wellFormed.load_nodup
  have perm : (view.load.erase id ++ [id]).Perm view.load :=
    List.perm_append_comm.trans (List.perm_cons_erase (wellFormed.load_mem present)).symm
  apply queue_eq_erase nodup (perm.nodup_iff.mpr nodup)
  · change (view.put id new).statusOf? id ≠ _
    rw [statusOf?_put, if_pos rfl]
    simpa using unqueued
  · intro other different
    exact (statusOf?_put view id other new).trans (if_neg different)
  · exact erase_erase_append nodup id

theorem queue_take (wellFormed : view.WellFormed) (present : view.records id = some record) :
    (view.take id record).queue = view.queue.erase id :=
  queue_put_back wellFormed present nofun

theorem queue_fail (wellFormed : view.WellFormed) (present : view.records id = some record)
    (pixmap : Option Image) : (view.fail id record pixmap).queue = view.queue.erase id :=
  queue_put_back wellFormed present nofun

theorem queue_land (wellFormed : view.WellFormed) (present : view.records id = some record)
    (pixmap : Image) : (view.land id record pixmap).queue = view.queue.erase id := by
  have unqueued : (record.landed pixmap).status ≠ .queued := nofun
  rw [← queue_put_back wellFormed present unqueued]
  exact queue_congr rfl fun _ => rfl

theorem queue_remove (wellFormed : view.WellFormed) (id : RecordId) :
    (view.remove id).queue = view.queue.erase id := by
  cases present : view.records id with
  | none =>
      have unqueued : view.statusOf? id ≠ some .queued := by simp [statusOf?, present]
      rw [queue_erase_of_unqueued unqueued, remove, present]
  | some record =>
      have nodup := wellFormed.load_nodup
      have absent : id ∉ view.load.erase id := fun idMem => (nodup.mem_erase_iff.mp idMem).1 rfl
      have loadEq : (view.remove id).load = view.load.erase id := by rw [remove_eq present]
      apply queue_eq_erase nodup
      · rw [loadEq]
        exact nodup.erase id
      · simp [statusOf?, records_remove]
      · intro other different
        exact statusOf?_remove_of_ne different
      · rw [loadEq, List.erase_of_not_mem absent]

/-- What makes room was not queued. -/
theorem queue_makeRoom (wellFormed : view.WellFormed) (orderly : view.Orderly) (capacity : Nat) :
    (view.makeRoom capacity).queue = view.queue := by
  rcases view.makeRoom_cases capacity with unchanged | ⟨victim, rest, settledEq, removed⟩
  · rw [unchanged]
  · have loaded := orderly.settled_loaded victim (by simp [settledEq])
    rw [removed, queue_remove wellFormed, queue_erase_of_unqueued (by simp [loaded])]

theorem queue_insert (wellFormed : view.WellFormed) (fresh : view.records id = none)
    (queued : record.status = .queued) : (view.insert id record).queue = id :: view.queue := by
  have absent := wellFormed.not_mem_load fresh
  have statuses : ∀ other, (view.insert id record).statusOf? other =
      if other = id then some .queued else view.statusOf? other := by
    intro other
    rw [← queued]
    exact statusOf?_put view id other record
  change (id :: view.load).filter _ = _
  rw [List.filter_cons_of_pos (by simp [statuses])]
  congr 1
  apply List.filter_congr
  intro other otherMem
  have different : other ≠ id := fun same => absent (same ▸ otherMem)
  rw [statuses, if_neg different]

/-- A request brings the record to the front of the queue, unless the loader has it already. -/
theorem queue_join (wellFormed : view.WellFormed) (present : view.records id = some record)
    (subscriber : SubscriberId) : (view.join id record subscriber).queue =
      if record.status = .queued then id :: view.queue.erase id else view.queue := by
  have statuses : ∀ other, (view.join id record subscriber).statusOf? other =
      view.statusOf? other := by
    intro other
    have statusEq : (record.joined subscriber).status = record.status := rfl
    exact statusOf?_put_same present statusEq other
  split
  · rename_i queued
    have loadEq : (view.join id record subscriber).load = id :: view.load.erase id := by
      simp [join, queued]
    have first : view.statusOf? id = some .queued := by rw [statusOf?_eq present, queued]
    simp only [queue, loadEq, statuses]
    rw [List.filter_cons_of_pos (by simp [first]), filter_erase wellFormed.load_nodup]
    rfl
  · rename_i unqueued
    apply queue_congr _ statuses
    simp [join, unqueued]

theorem Answers.queue_eq {key : ThumbnailKey} {status : Option RequestStatus}
    (answers : view.Answers key status next) : next.queue = view.queue := by
  cases answers with
  | hit => exact queue_congr rfl fun _ => rfl
  | failed => rfl
  | waiting => rfl
  | absent => rfl

/-- If anything is queued, the first record of the load order is, and then it is first in the
queue. -/
theorem queue_of_first {rest : List RecordId} (first : view.load = id :: rest)
    (queued : view.statusOf? id = some .queued) : view.queue.head? = some id := by
  rw [queue, first, List.filter_cons_of_pos (by simp [queued]), List.head?_cons]

end StoreView

namespace CacheState

def queue (state : CacheState) : List RecordId :=
  state.store.loadOrder.filter fun id => state.store.statusOf? id = some .queued

variable {state after : CacheState} {view next : StoreView} {call : CacheCall}
  {answer : CacheAnswer} {history : List CacheEvent} {id : RecordId}

theorem Tidy.queue_eq (tidy : state.Tidy view) : state.queue = view.queue := by
  simp only [CacheState.queue, StoreView.queue, tidy.represents.loadOrder_eq, tidy.statusOf?_eq]

/-- A request that is answered as queued asks for the record of its key. -/
theorem requested?_eq (nextTidy : after.Tidy next) {key : ThumbnailKey} {generator : Generator}
    {subscriber : SubscriberId} {wake : Wake} (named : next.names key = some id) :
    (CacheCall.request key generator subscriber).requested? (.status .queued wake) after =
      if next.statusOf? id = some .queued then some id else none := by
  have found : after.store.find? key = some id := (nextTidy.represents.names key).trans named
  simp [CacheCall.requested?, CacheCall.asked, found, Option.filter, nextTidy.statusOf?_eq]

theorem requested?_of_unasked (unasked : call.asked answer after = []) :
    call.requested? answer after = none := by
  simp [CacheCall.requested?, unasked]

/-- Calls other than requests and those of the loader leave the queue as it is. -/
theorem requeue_eq {queue : List RecordId} (unasked : call.asked answer after = [])
    (untaken : answer.taken? = none) :
    requeue queue (call.requested? answer after) answer.taken? = queue := by
  rw [requested?_of_unasked unasked, untaken, requeue]

/-- What a call asks for comes first in the queue, and what it takes goes. -/
theorem Effect.queue_eq (effect : state.Effect view call answer after next)
    (tidy : state.Tidy view) (nextTidy : after.Tidy next) :
    next.queue = requeue view.queue (call.requested? answer after) answer.taken? := by
  have wellFormed := tidy.wellFormed
  have orderly := tidy.orderly
  cases effect with
  | requestAnswered running answers =>
      rw [requeue_eq (by cases answers <;> rfl) rfl]
      exact answers.queue_eq
  | requestJoined running named present waiting =>
      rename_i subscriber id record store
      have statusEq : (view.join id record subscriber).statusOf? id = some record.status :=
        (StoreView.statusOf?_put view id id _).trans (if_pos rfl)
      rw [requested?_eq nextTidy named, StoreView.queue_join wellFormed present, statusEq]
      by_cases queued : record.status = .queued <;> simp [queued, requeue, CacheAnswer.taken?]
  | requestCreated running unnamed fresh =>
      rename_i key generator subscriber id store
      have named : (view.insert id (.created key generator state.clock subscriber)).names key =
          some id := by
        simp [StoreView.insert, Record.created, Record.queued]
      have statusEq :
          (view.insert id (.created key generator state.clock subscriber)).statusOf? id =
            some .queued :=
        (StoreView.statusOf?_put view id id _).trans (if_pos rfl)
      have absent : view.statusOf? id ≠ some .queued := by simp [StoreView.statusOf?, fresh]
      rw [requested?_eq nextTidy named, if_pos statusEq, requeue,
        StoreView.queue_erase_of_unqueued absent, StoreView.queue_insert wellFormed fresh rfl]
  | lookup answers =>
      rw [requeue_eq rfl rfl]
      exact answers.queue_eq
  | peekAnswered running answers =>
      rw [requeue_eq rfl rfl]
      exact answers.queue_eq
  | jobExpired first present queued stale => exact StoreView.queue_take wellFormed present
  | jobStarted first present queued timely => exact StoreView.queue_take wellFormed present
  | resultLanded running present inProgress =>
      have kept := orderly.records_makeRoom present (by simp [inProgress]) state.capacity
      rw [requeue_eq rfl rfl, StoreView.queue_land (wellFormed.makeRoom state.capacity) kept,
        StoreView.queue_makeRoom wellFormed orderly,
        StoreView.queue_erase_of_status present (by simp [inProgress])]
  | resultExpired running present inProgress =>
      rw [requeue_eq rfl rfl, StoreView.queue_remove wellFormed,
        StoreView.queue_erase_of_status present (by simp [inProgress])]
  | resultFailed running present inProgress failed =>
      rw [requeue_eq rfl rfl, StoreView.queue_fail wellFormed present,
        StoreView.queue_erase_of_status present (by simp [inProgress])]
  | evictExcess =>
      rw [requeue_eq rfl rfl]
      exact StoreView.queue_makeRoom wellFormed orderly _
  | forgotten named present finished =>
      have unqueued : _ ≠ RecordStatus.queued := RecordStatus.ne_of_isFinished finished rfl
      rw [requeue_eq rfl rfl, StoreView.queue_remove wellFormed,
        StoreView.queue_erase_of_status present unqueued]
  | _ => exact (requeue_eq rfl rfl).symm

/-- The loader takes the record at the front of the queue. -/
theorem Tidy.nextJob_eq (tidy : state.Tidy view) :
    state.nextJob.1.map Dequeued.id = view.queue.head? := by
  rcases tidy.nextJob with ⟨next, effect, _⟩
  change state.Effect view .nextJob (.taken state.nextJob.1) state.nextJob.2 next at effect
  generalize state.nextJob.1 = dequeued, state.nextJob.2 = after at effect
  cases effect with
  | nothingQueued idle =>
      have empty : view.queue = [] := by
        apply List.filter_eq_nil_iff.mpr
        intro id _
        simp [idle]
      rw [empty]
      rfl
  | jobExpired first present queued stale =>
      rw [StoreView.queue_of_first first (by rw [StoreView.statusOf?_eq present, queued])]
      rfl
  | jobStarted first present queued timely =>
      rw [StoreView.queue_of_first first (by rw [StoreView.statusOf?_eq present, queued])]
      rfl

/-- A queue is in the order of the last requests, the latest first, and everything in it was asked
for. -/
structure SortedByRequest (history : List CacheEvent) (queue : List RecordId) : Prop where
  sorted : queue.Pairwise fun id other => lastRequest history other < lastRequest history id
  requested : ∀ id ∈ queue, 0 < lastRequest history id

/-- What is kept without being asked for keeps its order. -/
theorem SortedByRequest.keep {queue kept : List RecordId} {event : CacheEvent}
    (sorted : SortedByRequest history queue) (sublist : kept.Sublist queue)
    (unrequested : ∀ id ∈ kept, event.requested? ≠ some id) :
    SortedByRequest (history ++ [event]) kept := by
  refine ⟨(sorted.sorted.sublist sublist).imp_of_mem ?_, ?_⟩
  · intro id other idMem otherMem later
    rwa [lastRequest_concat_of_unrequested (unrequested id idMem),
      lastRequest_concat_of_unrequested (unrequested other otherMem)]
  · intro id idMem
    rw [lastRequest_concat_of_unrequested (unrequested id idMem)]
    exact sorted.requested id (sublist.subset idMem)

/-- What is asked for is ahead of what is kept. -/
theorem SortedByRequest.push {queue kept : List RecordId} {event : CacheEvent}
    (sorted : SortedByRequest history queue) (sublist : kept.Sublist queue)
    (requested : event.requested? = some id) (others : id ∉ kept) :
    SortedByRequest (history ++ [event]) (id :: kept) := by
  have unrequested : ∀ other ∈ kept, event.requested? ≠ some other := by
    intro other otherMem same
    rw [requested, Option.some.injEq] at same
    exact others (same ▸ otherMem)
  have keeps := sorted.keep sublist unrequested
  have latest : lastRequest (history ++ [event]) id = history.length + 1 :=
    lastRequest_concat_of_requested requested
  refine ⟨List.pairwise_cons.mpr ⟨?_, keeps.sorted⟩, List.forall_mem_cons.mpr ⟨?_, keeps.requested⟩⟩
  · intro other otherMem
    rw [latest, lastRequest_concat_of_unrequested (unrequested other otherMem)]
    exact Nat.lt_succ_of_le (lastRequest_le history other)
  · rw [latest]
    exact Nat.succ_pos _

theorem SortedByRequest.requeue {queue : List RecordId} {event : CacheEvent}
    (sorted : SortedByRequest history queue) (nodup : queue.Nodup) (taken : Option RecordId) :
    SortedByRequest (history ++ [event]) (requeue queue event.requested? taken) := by
  cases requested : event.requested? with
  | some id =>
      apply sorted.push List.erase_sublist requested
      exact fun idMem => (nodup.mem_erase_iff.mp idMem).1 rfl
  | none =>
      have unrequested : ∀ id, event.requested? ≠ some id := by simp [requested]
      cases taken with
      | some id => exact sorted.keep List.erase_sublist fun other _ => unrequested other
      | none => exact sorted.keep (List.Sublist.refl _) fun other _ => unrequested other

/-- After any calls, the queue is in the order of the last requests. -/
theorem queue_sorted_after (config : Config) (directory : Path) (calls : List CacheCall) :
    SortedByRequest ((new config directory).history calls)
      ((new config directory).after calls).queue := by
  induction calls using after_induction with
  | start => exact ⟨List.Pairwise.nil, fun _ => nofun⟩
  | step calls call ih =>
      rcases tidy_after config directory calls with ⟨view, tidy⟩
      rcases tidy.perform call with ⟨next, effect, nextTidy⟩
      rw [tidy.queue_eq] at ih
      rw [history_concat, nextTidy.queue_eq, effect.queue_eq tidy nextTidy]
      exact ih.requeue (StoreView.queue_nodup tidy.wellFormed) _

theorem Tidy.next_queue (tidy : state.Tidy view) : ∃ next, (state.perform .nextJob).2.Tidy next ∧
    (state.perform .nextJob).1.taken? = view.queue.head? ∧ next.queue = view.queue.tail := by
  rcases tidy.perform .nextJob with ⟨next, effect, nextTidy⟩
  have taken : (state.perform .nextJob).1.taken? = view.queue.head? := tidy.nextJob_eq
  have nextQueue := effect.queue_eq tidy nextTidy
  rw [requested?_of_unasked rfl, taken] at nextQueue
  refine ⟨next, nextTidy, taken, nextQueue.trans ?_⟩
  cases view.queue with
  | nil => rfl
  | cons id rest => simp [requeue]

/-- A loader that has nothing to do finds nothing, however often it looks. -/
theorem Tidy.idle (tidy : state.Tidy view) (empty : view.queue = []) (rounds : Nat) :
    (state.history (List.replicate rounds .nextJob)).map (fun event => event.answer.taken?) =
      List.replicate rounds none := by
  induction rounds generalizing state view with
  | zero => rfl
  | succ rounds ih =>
      rcases tidy.next_queue with ⟨next, nextTidy, taken, nextQueue⟩
      rw [empty] at taken nextQueue
      rw [List.replicate_succ, history, List.map_cons, ih nextTidy nextQueue]
      exact congrArg (· :: _) taken

/-- A loader that nothing interrupts goes through the queue from the front, and then finds nothing
any more. -/
theorem Tidy.drain (tidy : state.Tidy view) {queue : List RecordId} (queueEq : view.queue = queue)
    (rounds : Nat) :
    (state.history (List.replicate (queue.length + rounds) .nextJob)).map
        (fun event => event.answer.taken?) = queue.map some ++ List.replicate rounds none := by
  induction queue generalizing state view with
  | nil => simpa using tidy.idle queueEq rounds
  | cons id rest ih =>
      rcases tidy.next_queue with ⟨next, nextTidy, taken, nextQueue⟩
      rw [queueEq] at taken nextQueue
      rw [List.length_cons, Nat.succ_add, List.replicate_succ, history, List.map_cons,
        ih nextTidy nextQueue]
      exact congrArg (· :: _) taken

/-- A cache and what happened to it are such that the loader is given what was asked for last. -/
structure ServesNewest (history : List CacheEvent) (state : CacheState) : Prop where
  /-- The queue holds every queued record once, in load order. -/
  queue_nodup : state.queue.Nodup
  mem_queue : ∀ id, id ∈ state.queue ↔ state.store.statusOf? id = some .queued
  queue_sublist : state.queue.Sublist state.store.loadOrder
  queue_sorted : SortedByRequest history state.queue
  /-- What the loader takes was asked for after everything else that is queued. -/
  newest : ∀ dequeued, state.nextJob.1 = some dequeued →
    state.store.statusOf? dequeued.id = some .queued ∧
      ∀ other, state.store.statusOf? other = some .queued → other ≠ dequeued.id →
        lastRequest history other < lastRequest history dequeued.id
  /-- With nothing in between, the loader takes all that is queued in this order, and then nothing
  any more. -/
  drains : ∀ rounds,
    (state.history (List.replicate (state.store.queuedCount + rounds) .nextJob)).map
        (fun event => event.answer.taken?) = state.queue.map some ++ List.replicate rounds none

/-- Whatever a cache was set up with, after any calls it serves what was asked for last. -/
theorem servesNewest_after (config : Config) (directory : Path) (calls : List CacheCall) :
    ServesNewest ((new config directory).history calls) ((new config directory).after calls) := by
  rcases tidy_after config directory calls with ⟨view, tidy⟩
  have sorted := queue_sorted_after config directory calls
  have queued := tidy.queue_eq
  have members : ∀ id, id ∈ ((new config directory).after calls).queue ↔
      ((new config directory).after calls).store.statusOf? id = some .queued := by
    intro id
    rw [queued, tidy.statusOf?_eq]
    exact StoreView.mem_queue tidy.wellFormed
  have counted : ((new config directory).after calls).store.queuedCount =
      view.queue.length := by
    rw [tidy.represents.queuedCount]
    exact List.countP_eq_length_filter
  refine ⟨?_, members, List.filter_sublist, sorted, ?_, ?_⟩
  · rw [queued]
    exact StoreView.queue_nodup tidy.wellFormed
  · intro dequeued taken
    have first : ((new config directory).after calls).queue.head? = some dequeued.id := by
      rw [queued, ← tidy.nextJob_eq, taken]
      rfl
    rcases List.head?_eq_some_iff.mp first with ⟨rest, queueEq⟩
    refine ⟨(members _).mp (by simp [queueEq]), ?_⟩
    intro other otherQueued different
    have otherMem := (members other).mpr otherQueued
    have pairwise := sorted.sorted
    rw [queueEq] at otherMem pairwise
    exact (List.pairwise_cons.mp pairwise).1 other
      ((List.mem_cons.mp otherMem).resolve_left different)
  · intro rounds
    rw [counted, queued]
    exact tidy.drain rfl rounds

/-- Three pages are asked for and the first one once more. It is served before the other two, of
which the later one comes first. -/
example :
    let calls := [CacheCall.request (letterPage 0x61) (.constant .crashed) 0,
      .request (letterPage 0x62) (.constant .crashed) 1,
      .request (letterPage 0x63) (.constant .crashed) 2,
      .request (letterPage 0x61) (.constant .crashed) 3]
    ((new ⟨⟨[0x2f]⟩, ⟨64, 64⟩, 2, 10, 0⟩ ⟨[0x2f]⟩).after calls).queue.map RecordId.slot =
      [0, 2, 1] := by decide

end CacheState

end Thumbnails
