import Thumbnails.Proofs.Cache.Tidy

/-!
# Tickets

A request that is answered as queued gets a ticket: the subscriber will be told when the load of the
record that it joined comes to its end. One subscriber may hold many tickets, also for one key. As
long as a ticket is open, it lies with its record in the order of the requests.

`Effect.tickets` is what a single call does: for every key, the open tickets and then those that the
call hands out are those that it settles and then those that are open afterwards.
-/

namespace Thumbnails

/-- The promise to tell a subscriber of a key once the load of a record has come to its end. -/
structure Ticket where
  key : ThumbnailKey
  record : RecordId
  subscriber : SubscriberId
  deriving DecidableEq

def Record.tickets (record : Record) (id : RecordId) : List Ticket :=
  record.subscribers.map fun subscriber => ⟨record.key, id, subscriber⟩

namespace StoreView

def ticketsAt (view : StoreView) (id : RecordId) : List Ticket :=
  (view.records id).elim [] fun record => record.tickets id

/-- The open tickets of a key. -/
def ticketsFor (view : StoreView) (key : ThumbnailKey) : List Ticket :=
  (view.names key).elim [] view.ticketsAt

variable {view next : StoreView} {id : RecordId} {record old new : Record} {key : ThumbnailKey}

theorem ticketsFor_eq (wellFormed : view.WellFormed) (present : view.records id = some record) :
    view.ticketsFor record.key = record.tickets id := by
  simp [ticketsFor, wellFormed.names_eq present, ticketsAt, present]

theorem ticketsFor_unnamed (unnamed : view.names key = none) : view.ticketsFor key = [] := by
  simp [ticketsFor, unnamed]

/-- Tickets of a key do not depend on records of other keys. -/
theorem ticketsFor_congr (wellFormed : view.WellFormed)
    (names : next.names key = view.names key)
    (records : ∀ other found, view.records other = some found → found.key = key →
      next.records other = view.records other) :
    next.ticketsFor key = view.ticketsFor key := by
  rw [ticketsFor, ticketsFor, names]
  cases named : view.names key with
  | none => rfl
  | some other =>
      rcases (wellFormed.names_iff key other).mp named with ⟨found, present, keyEq⟩
      simp only [Option.elim_some, ticketsAt, records other found present keyEq]

theorem ticketsFor_put (wellFormed : view.WellFormed) (present : view.records id = some old)
    (keyEq : new.key = old.key) (key : ThumbnailKey) :
    (view.put id new).ticketsFor key =
      if key = old.key then new.tickets id else view.ticketsFor key := by
  split
  · rename_i same
    have own : (view.put id new).records id = some new := by simp [records_put]
    rw [same, ← keyEq, ticketsFor_eq (wellFormed.put present keyEq) own]
  · rename_i different
    apply ticketsFor_congr wellFormed
    · rfl
    · intro other found otherPresent otherKey
      rw [records_put, if_neg]
      rintro rfl
      cases present.symm.trans otherPresent
      exact different otherKey.symm

/-- The loader takes a record with its tickets. -/
theorem ticketsFor_take (wellFormed : view.WellFormed) (present : view.records id = some record)
    (key : ThumbnailKey) : (view.take id record).ticketsFor key = view.ticketsFor key := by
  have takenKey : record.taken.key = record.key := rfl
  refine (ticketsFor_put wellFormed present takenKey key).trans ?_
  split
  · rename_i same
    rw [same, ticketsFor_eq wellFormed present]
    rfl
  · rfl

theorem ticketsFor_insert (wellFormed : view.WellFormed) (fresh : view.records id = none)
    (unnamed : view.names record.key = none) (key : ThumbnailKey) :
    (view.insert id record).ticketsFor key =
      if key = record.key then record.tickets id else view.ticketsFor key := by
  split
  · rename_i same
    have own : (view.insert id record).records id = some record := by simp [StoreView.insert]
    rw [same, ticketsFor_eq (wellFormed.insert fresh unnamed) own]
  · rename_i different
    apply ticketsFor_congr wellFormed
    · simp [StoreView.insert, Function.update_of_ne different]
    · intro other found otherPresent _
      have otherNe : other ≠ id := by
        rintro rfl
        cases fresh.symm.trans otherPresent
      simp [StoreView.insert, Function.update_of_ne otherNe]

theorem ticketsFor_remove (wellFormed : view.WellFormed) (present : view.records id = some record)
    (key : ThumbnailKey) : (view.remove id).ticketsFor key =
      if key = record.key then [] else view.ticketsFor key := by
  split
  · rename_i same
    apply ticketsFor_unnamed
    simp [same, remove_eq present]
  · rename_i different
    apply ticketsFor_congr wellFormed
    · simp [remove_eq present, Function.update_of_ne different]
    · intro other found otherPresent otherKey
      apply records_remove_of_ne
      rintro rfl
      cases present.symm.trans otherPresent
      exact different otherKey.symm

/-- A finished record takes no ticket along. -/
theorem ticketsFor_remove_finished (wellFormed : view.WellFormed) (orderly : view.Orderly)
    (present : view.records id = some record) (finished : record.status.isFinished = true)
    (key : ThumbnailKey) : (view.remove id).ticketsFor key = view.ticketsFor key := by
  rw [ticketsFor_remove wellFormed present]
  split
  · rename_i same
    have none := (orderly.proper id record present).finished_subscribers finished
    rw [same, ticketsFor_eq wellFormed present, Record.tickets, none, List.map_nil]
  · rfl

theorem ticketsFor_makeRoom (wellFormed : view.WellFormed) (orderly : view.Orderly)
    (capacity : Nat) (key : ThumbnailKey) :
    (view.makeRoom capacity).ticketsFor key = view.ticketsFor key := by
  rcases view.makeRoom_cases capacity with unchanged | ⟨victim, rest, settledEq, removed⟩
  · rw [unchanged]
  · have victimLoaded := orderly.settled_loaded victim (by simp [settledEq])
    rcases Option.map_eq_some_iff.mp victimLoaded with ⟨record, present, loaded⟩
    rw [removed]
    apply ticketsFor_remove_finished wellFormed orderly present
    rw [loaded]
    rfl

theorem Answers.ticketsFor_eq {status : Option RequestStatus} {asked : ThumbnailKey}
    (answers : view.Answers asked status next) (key : ThumbnailKey) :
    next.ticketsFor key = view.ticketsFor key := by
  cases answers with
  | hit => rfl
  | failed => rfl
  | waiting => rfl
  | absent => rfl

end StoreView

namespace CacheCall

/-- The tickets that a call hands out. -/
def asked (call : CacheCall) (answer : CacheAnswer) (after : CacheState) : List Ticket :=
  match call, answer with
  | .request key _ subscriber, .status .queued _ =>
    (after.store.find? key).toList.map fun id => ⟨key, id, subscriber⟩
  | _, _ => []

/-- The tickets that a call settles, because their subscribers are told. -/
def told (call : CacheCall) (answer : CacheAnswer) (before : CacheState) : List Ticket :=
  match call, answer with
  | .complete result, .completed (some completion) =>
    match before.store.get? result.id with
    | none => []
    | some record =>
      completion.subscribers.map fun subscriber => ⟨record.key, result.id, subscriber⟩
  | _, _ => []

end CacheCall

namespace CacheEvent

def asked (event : CacheEvent) : List Ticket :=
  event.call.asked event.answer event.after

def told (event : CacheEvent) : List Ticket :=
  event.call.told event.answer event.before

end CacheEvent

theorem Record.filter_tickets (record : Record) (id : RecordId) (key : ThumbnailKey) :
    (record.tickets id).filter (fun ticket => ticket.key = key) =
      if key = record.key then record.tickets id else [] := by
  split
  · rename_i same
    apply List.filter_eq_self.mpr
    simp [Record.tickets, same]
  · rename_i different
    apply List.filter_eq_nil_iff.mpr
    simp [Record.tickets, Ne.symm different]

namespace CacheState

variable {state after : CacheState} {view next : StoreView} {call : CacheCall}
  {answer : CacheAnswer} {id : RecordId} {record new : Record}

theorem told_eq (tidy : state.Tidy view) (present : view.records id = some record)
    (status : LoadStatus) (pixmap : Option Image) (notice : Notice) :
    CacheCall.told (.complete ⟨id, status, pixmap⟩)
      (.completed (some ⟨record.subscribers, notice⟩)) state = record.tickets id := by
  simp [CacheCall.told, tidy.represents.records, present, Record.tickets]

/-- The tickets of a record that comes to its end are settled, and no others. -/
theorem tickets_settled (tidy : state.Tidy view) (present : view.records id = some record)
    (next_tickets : ∀ key, next.ticketsFor key =
      if key = record.key then [] else view.ticketsFor key) (key : ThumbnailKey) :
    view.ticketsFor key ++ [] =
      (record.tickets id).filter (fun ticket => ticket.key = key) ++ next.ticketsFor key := by
  rw [Record.filter_tickets, next_tickets, List.append_nil]
  split
  · rename_i same
    rw [same, StoreView.ticketsFor_eq tidy.wellFormed present, List.append_nil]
  · rfl

/-- A request that is answered as queued hands out one ticket, which comes last. -/
theorem tickets_asked (nextTidy : after.Tidy next) {asked : ThumbnailKey} {generator : Generator}
    {subscriber : SubscriberId} {wake : Wake} {old : List Ticket}
    (named : next.names asked = some id)
    (next_tickets : ∀ key, next.ticketsFor key =
      if key = asked then old ++ [⟨asked, id, subscriber⟩] else view.ticketsFor key)
    (view_tickets : view.ticketsFor asked = old) (key : ThumbnailKey) :
    view.ticketsFor key ++ (CacheCall.asked (.request asked generator subscriber)
        (.status .queued wake) after).filter (fun ticket => ticket.key = key) =
      next.ticketsFor key := by
  have askedEq : CacheCall.asked (.request asked generator subscriber) (.status .queued wake)
      after = [⟨asked, id, subscriber⟩] := by
    simp [CacheCall.asked, nextTidy.represents.names, named]
  rw [askedEq, next_tickets]
  split
  · rename_i same
    simp [same, view_tickets]
  · rename_i different
    simp [Ne.symm different]

theorem Effect.tickets (effect : state.Effect view call answer after next)
    (tidy : state.Tidy view) (nextTidy : after.Tidy next) (key : ThumbnailKey) :
    view.ticketsFor key ++ (call.asked answer after).filter (fun ticket => ticket.key = key) =
      (call.told answer state).filter (fun ticket => ticket.key = key) ++
        next.ticketsFor key := by
  have wellFormed := tidy.wellFormed
  have orderly := tidy.orderly
  cases effect with
  | requestAnswered running answers =>
      have unchanged := answers.ticketsFor_eq key
      cases answers
      · simpa [CacheCall.asked, CacheCall.told] using unchanged.symm
      · simp [CacheCall.asked, CacheCall.told]
  | requestJoined running named present waiting =>
      rename_i subscriber id record _
      have keyEq := wellFormed.key_eq named present
      have joinedKey : (record.joined subscriber).key = record.key := rfl
      apply tickets_asked nextTidy named
      · intro key
        refine (StoreView.ticketsFor_put wellFormed present joinedKey key).trans ?_
        rw [keyEq]
        congr 1
        simp [Record.tickets, Record.joined, keyEq]
        rfl
      · rw [← keyEq, StoreView.ticketsFor_eq wellFormed present]
        rfl
  | requestCreated running unnamed fresh =>
      rename_i asked generator subscriber id store
      have absent : view.names (Record.created asked generator state.clock subscriber).key = none :=
        unnamed
      have named : (view.insert id
          (.created asked generator state.clock subscriber)).names asked = some id := by
        simp [StoreView.insert, Record.created, Record.queued]
      refine tickets_asked nextTidy named ?_ (StoreView.ticketsFor_unnamed unnamed) key
      exact StoreView.ticketsFor_insert wellFormed fresh absent
  | lookup answers => simp [CacheCall.asked, CacheCall.told, answers.ticketsFor_eq]
  | peekAnswered running answers => simp [CacheCall.asked, CacheCall.told, answers.ticketsFor_eq]
  | jobExpired first present queued stale =>
      simp [CacheCall.asked, CacheCall.told, StoreView.ticketsFor_take wellFormed present]
  | jobStarted first present queued timely =>
      simp [CacheCall.asked, CacheCall.told, StoreView.ticketsFor_take wellFormed present]
  | resultLanded running present inProgress =>
      rename_i id record pixmap store
      have kept := orderly.records_makeRoom present (by simp [inProgress]) state.capacity
      have landedKey : (record.landed pixmap).key = record.key := rfl
      have roomy := wellFormed.makeRoom state.capacity
      rw [told_eq tidy present]
      refine tickets_settled tidy present (fun key => ?_) key
      refine (StoreView.ticketsFor_put roomy kept landedKey key).trans ?_
      rw [StoreView.ticketsFor_makeRoom wellFormed orderly]
      rfl
  | resultExpired running present inProgress =>
      rw [told_eq tidy present]
      exact tickets_settled tidy present (StoreView.ticketsFor_remove wellFormed present) key
  | resultFailed running present inProgress failed =>
      rename_i id record status pixmap store
      have failedKey : (record.failed pixmap).key = record.key := rfl
      rw [told_eq tidy present]
      exact tickets_settled tidy present (StoreView.ticketsFor_put wellFormed present failedKey) key
  | evictExcess =>
      simp [CacheCall.asked, CacheCall.told, StoreView.ticketsFor_makeRoom wellFormed orderly]
  | forgotten named present finished =>
      simp [CacheCall.asked, CacheCall.told,
        StoreView.ticketsFor_remove_finished wellFormed orderly present finished]
  | _ => simp [CacheCall.asked, CacheCall.told]

end CacheState

end Thumbnails
