import Thumbnails.Cache.Session
import Thumbnails.Proofs.Cache.Ticket

/-!
# Delivery

Every ticket that was handed out is, at any moment, in one place: it lies with the record that it
was handed out for, or it was settled by the one completion of that record. Nothing else has
tickets, and for each key they are settled in the order in which they were handed out. Whatever
results come in, and whatever is evicted, forgotten or shut down in between, makes no difference.
-/

namespace Thumbnails

namespace Session

variable (setup : Setup) (perform : Session → Command → Reply × Session) (notice : Notice)

/-- The turn of one subscriber. A handler that is alive by then is called once, and does what its
script says before the call ends. One that is gone is passed over. -/
def turn (session : Session) (id : SubscriberId) : Session :=
  match session.handlers.nameOf? id with
  | none => session
  | some name =>
    let entered := { session with handlers := session.handlers.enter name id }
    let (nested, called) := performAll perform (setup.script name) entered
    let events := called.journal.events ++ [⟨⟨name, notice⟩, nested⟩]
    { called with journal := { called.journal with events }, handlers := called.handlers.leave }

theorem tell_eq_foldl (subscribers : List SubscriberId) (session : Session) :
    tell setup perform notice subscribers session =
      subscribers.foldl (turn setup perform notice) session := by
  induction subscribers generalizing session with
  | nil => rfl
  | cons id subscribers ih =>
      rw [List.foldl_cons, tell, turn]
      cases alive : session.handlers.nameOf? id with
      | none => exact ih session
      | some name => exact ih _

end Session

namespace CacheState

def waiting (state : CacheState) : List Ticket :=
  state.store.loadOrder.flatMap fun id =>
    (state.store.get? id).elim [] fun record => record.tickets id

/-- What happened so far accounts for every ticket. -/
structure DeliversOnce (history : List CacheEvent) (state : CacheState) : Prop where
  in_order : ∀ key,
    (history.flatMap CacheEvent.asked).filter (fun ticket => ticket.key = key) =
      (history.flatMap CacheEvent.told).filter (fun ticket => ticket.key = key) ++
        state.waiting.filter fun ticket => ticket.key = key
  conserved : (history.flatMap CacheEvent.asked).Perm
    (history.flatMap CacheEvent.told ++ state.waiting)
  /-- A request gets a ticket if it is answered as queued, and only then. -/
  asked : ∀ event ∈ history, ∀ key generator subscriber status wake,
    event.call = .request key generator subscriber → event.answer = .status status wake →
      if status = .queued then ∃ id, event.asked = [⟨key, id, subscriber⟩] else event.asked = []
  /-- A completion tells the subscribers of the record that its result is for. -/
  told : ∀ event ∈ history, ∀ completion, event.answer = .completed (some completion) →
    ∃ result record, event.call = .complete result ∧
      event.before.store.get? result.id = some record ∧ record.status = .inProgress ∧
      completion.subscribers = record.subscribers ∧ event.told = record.tickets result.id
  /-- Subscribers lie with the one record of their key, before it has come to its end. -/
  held : ∀ id record, state.store.get? id = some record →
    state.store.find? record.key = some id ∧
      state.waiting.filter (fun ticket => ticket.key = record.key) = record.tickets id ∧
      (record.subscribers ≠ [] → record.status = .queued ∨ record.status = .inProgress)
  /-- A subscriber that never got a ticket is found nowhere. -/
  strangers : ∀ subscriber,
    (∀ ticket ∈ history.flatMap CacheEvent.asked, ticket.subscriber ≠ subscriber) →
      (∀ id record, state.store.get? id = some record → subscriber ∉ record.subscribers) ∧
      ∀ event ∈ history, ∀ completion, event.answer = .completed (some completion) →
        subscriber ∉ completion.subscribers
  /-- A completion calls the handlers that are alive, once for each ticket and in order. -/
  notified : ∀ event ∈ history, ∀ completion, event.answer = .completed (some completion) →
    ∀ handlers : Handlers, (handlers.deliveries completion).map Delivery.handler =
      event.told.filterMap fun ticket => handlers.nameOf? ticket.subscriber
  /-- Where handlers come and go in the middle of it, every ticket has its turn all the same. -/
  turns : ∀ event ∈ history, ∀ completion, event.answer = .completed (some completion) →
    ∀ setup perform session,
      Session.tell setup perform completion.notice completion.subscribers session =
        (event.told.map Ticket.subscriber).foldl
          (Session.turn setup perform completion.notice) session

variable {state : CacheState} {view : StoreView} {id : RecordId} {record : Record}

/-- A list that is gathered from distinct items is what the only item with something to it gives. -/
theorem flatMap_eq_of_unique {items : List RecordId} {gather : RecordId → List Ticket}
    (nodup : items.Nodup) (idMem : id ∈ items)
    (others : ∀ other ∈ items, other ≠ id → gather other = []) :
    items.flatMap gather = gather id := by
  induction items with
  | nil => cases idMem
  | cons first rest ih =>
      have ⟨notMem, restNodup⟩ := List.nodup_cons.mp nodup
      have restOthers : ∀ other ∈ rest, other ≠ id → gather other = [] := by
        intro other otherMem
        exact others other (List.mem_cons_of_mem _ otherMem)
      rw [List.flatMap_cons]
      rcases List.mem_cons.mp idMem with rfl | behind
      · have nothing : rest.flatMap gather = [] := by
          apply List.flatMap_eq_nil_iff.mpr
          intro other otherMem
          exact restOthers other otherMem fun same => notMem (same ▸ otherMem)
        rw [nothing, List.append_nil]
      · have different : first ≠ id := fun same => notMem (same ▸ behind)
        rw [others first List.mem_cons_self different, List.nil_append,
          ih restNodup behind restOthers]

namespace Tidy

theorem waiting_eq (tidy : state.Tidy view) : state.waiting = view.load.flatMap view.ticketsAt := by
  rw [waiting, tidy.represents.loadOrder_eq]
  simp only [tidy.represents.records]
  rfl

theorem filter_ticketsAt (tidy : state.Tidy view) (id : RecordId) (key : ThumbnailKey) :
    (view.ticketsAt id).filter (fun ticket => ticket.key = key) =
      if view.names key = some id then view.ticketsAt id else [] := by
  rw [StoreView.ticketsAt]
  cases present : view.records id with
  | none => simp
  | some record =>
      rw [Option.elim_some, Record.filter_tickets]
      by_cases same : key = record.key
      · rw [if_pos same, same, if_pos (tidy.wellFormed.names_eq present)]
      · rw [if_neg same, if_neg]
        intro named
        exact same (tidy.wellFormed.key_eq named present).symm

/-- The open tickets of a key lie with its record. -/
theorem filter_waiting (tidy : state.Tidy view) (key : ThumbnailKey) :
    state.waiting.filter (fun ticket => ticket.key = key) = view.ticketsFor key := by
  rw [tidy.waiting_eq, List.filter_flatMap]
  simp only [tidy.filter_ticketsAt]
  rw [StoreView.ticketsFor]
  cases named : view.names key with
  | none => simp
  | some id =>
      rcases tidy.wellFormed.record_of_name named with ⟨record, present⟩
      rw [flatMap_eq_of_unique tidy.wellFormed.load_nodup (tidy.wellFormed.load_mem present)]
      · simp
      · intro other _ different
        simp [Ne.symm different]

theorem held (tidy : state.Tidy view) (present : state.store.get? id = some record) :
    state.store.find? record.key = some id ∧
      state.waiting.filter (fun ticket => ticket.key = record.key) = record.tickets id ∧
      (record.subscribers ≠ [] → record.status = .queued ∨ record.status = .inProgress) := by
  rw [tidy.represents.records] at present
  refine ⟨?_, ?_, ?_⟩
  · rw [tidy.represents.names]
    exact tidy.wellFormed.names_eq present
  · rw [tidy.filter_waiting, StoreView.ticketsFor_eq tidy.wellFormed present]
  · intro subscribed
    have finished := (tidy.orderly.proper id record present).finished_subscribers
    cases status : record.status with
    | queued => exact .inl rfl
    | inProgress => exact .inr rfl
    | loaded => exact absurd (finished (by rw [status]; rfl)) subscribed
    | loadFailed => exact absurd (finished (by rw [status]; rfl)) subscribed

end Tidy

theorem in_order_after (config : Config) (directory : Path) (calls : List CacheCall)
    (key : ThumbnailKey) :
    (((new config directory).history calls).flatMap CacheEvent.asked).filter
        (fun ticket => ticket.key = key) =
      (((new config directory).history calls).flatMap CacheEvent.told).filter
          (fun ticket => ticket.key = key) ++
        ((new config directory).after calls).waiting.filter fun ticket => ticket.key = key := by
  induction calls using after_induction with
  | start => rfl
  | step calls call ih =>
      rcases tidy_after config directory calls with ⟨view, tidy⟩
      rcases tidy.perform call with ⟨next, effect, nextTidy⟩
      have balance := effect.tickets tidy nextTidy key
      rw [tidy.filter_waiting] at ih
      rw [history_concat, List.flatMap_append, List.flatMap_append, List.filter_append,
        List.filter_append, ih, nextTidy.filter_waiting, List.append_assoc, List.append_assoc,
        List.flatMap_singleton, List.flatMap_singleton]
      exact congrArg _ balance

theorem perm_of_filter_key {left right : List Ticket}
    (same : ∀ key, left.filter (fun ticket => ticket.key = key) =
      right.filter fun ticket => ticket.key = key) : left.Perm right := by
  apply List.perm_iff_count.mpr
  intro ticket
  have counted : ∀ tickets : List Ticket,
      (tickets.filter fun other => other.key = ticket.key).count ticket = tickets.count ticket := by
    intro tickets
    apply List.count_filter
    simp
  rw [← counted left, same, counted]

/-- What happened last met the state that the calls before it had led to. -/
theorem before_of_mem_history (config : Config) (directory : Path) (calls : List CacheCall)
    {event : CacheEvent} (eventMem : event ∈ (new config directory).history calls) :
    ∃ earlier, event.before = (new config directory).after earlier := by
  induction calls using List.reverseRecOn with
  | nil => cases eventMem
  | append_singleton calls call ih =>
      rw [history_concat] at eventMem
      rcases List.mem_append.mp eventMem with early | last
      · exact ih early
      · rw [List.mem_singleton.mp last]
        exact ⟨calls, rfl⟩

/-- Whatever happened was an effect on a tidy state. -/
theorem effect_of_mem_history (config : Config) (directory : Path) (calls : List CacheCall)
    {event : CacheEvent} (eventMem : event ∈ (new config directory).history calls) :
    ∃ view next, event.before.Tidy view ∧ event.after.Tidy next ∧
      event.before.Effect view event.call event.answer event.after next := by
  rcases before_of_mem_history config directory calls eventMem with ⟨earlier, beforeEq⟩
  rcases tidy_after config directory earlier with ⟨view, tidy⟩
  rw [← beforeEq] at tidy
  rcases tidy.perform event.call with ⟨next, effect, nextTidy⟩
  exact ⟨view, next, tidy, nextTidy, effect⟩

variable {after : CacheState} {next : StoreView}

theorem Effect.asked {key : ThumbnailKey} {generator : Generator} {subscriber : SubscriberId}
    {status : RequestStatus} {wake : Wake}
    (effect : state.Effect view (.request key generator subscriber) (.status status wake) after
      next) (nextTidy : after.Tidy next) :
    if status = .queued then
      ∃ id, CacheCall.asked (.request key generator subscriber) (.status status wake) after =
        [⟨key, id, subscriber⟩]
    else CacheCall.asked (.request key generator subscriber) (.status status wake) after = [] := by
  cases effect with
  | requestRefused closing => simp [CacheCall.asked]
  | requestAnswered running answers => cases answers <;> simp [CacheCall.asked]
  | requestJoined running named present waiting =>
      have found := (nextTidy.represents.names key).trans named
      simp [CacheCall.asked, found]
  | requestCreated running unnamed fresh =>
      have found := nextTidy.represents.names key
      simp [CacheCall.asked, found, StoreView.insert, Record.created, Record.queued]

theorem Effect.told {call : CacheCall} {completion : Completion}
    (effect : state.Effect view call (.completed (some completion)) after next)
    (tidy : state.Tidy view) : ∃ result record, call = .complete result ∧
      state.store.get? result.id = some record ∧ record.status = .inProgress ∧
      completion.subscribers = record.subscribers ∧
      call.told (.completed (some completion)) state = record.tickets result.id := by
  cases effect with
  | resultLanded running present inProgress =>
      exact ⟨_, _, rfl, (tidy.represents.records _).trans present, inProgress, rfl,
        told_eq tidy present _ _ _⟩
  | resultExpired running present inProgress =>
      exact ⟨_, _, rfl, (tidy.represents.records _).trans present, inProgress, rfl,
        told_eq tidy present _ _ _⟩
  | resultFailed running present inProgress failed =>
      exact ⟨_, _, rfl, (tidy.represents.records _).trans present, inProgress, rfl,
        told_eq tidy present _ _ _⟩

theorem mem_waiting (tidy : state.Tidy view) (present : state.store.get? id = some record)
    {ticket : Ticket} (ticketMem : ticket ∈ record.tickets id) : ticket ∈ state.waiting := by
  rw [← (tidy.held present).2.1] at ticketMem
  exact List.mem_of_mem_filter ticketMem

theorem mem_tickets {subscriber : SubscriberId} (subscribed : subscriber ∈ record.subscribers)
    (id : RecordId) : ⟨record.key, id, subscriber⟩ ∈ record.tickets id :=
  List.mem_map_of_mem subscribed

theorem conserved_after (config : Config) (directory : Path) (calls : List CacheCall) :
    (((new config directory).history calls).flatMap CacheEvent.asked).Perm
      (((new config directory).history calls).flatMap CacheEvent.told ++
        ((new config directory).after calls).waiting) := by
  apply perm_of_filter_key
  intro key
  rw [List.filter_append]
  exact in_order_after config directory calls key

theorem told_of_mem_history (config : Config) (directory : Path) (calls : List CacheCall)
    {event : CacheEvent} (eventMem : event ∈ (new config directory).history calls)
    {completion : Completion} (answerEq : event.answer = .completed (some completion)) :
    ∃ result record, event.call = .complete result ∧
      event.before.store.get? result.id = some record ∧ record.status = .inProgress ∧
      completion.subscribers = record.subscribers ∧ event.told = record.tickets result.id := by
  rcases effect_of_mem_history config directory calls eventMem with
    ⟨view, next, tidy, nextTidy, effect⟩
  rw [CacheEvent.told, answerEq]
  rw [answerEq] at effect
  exact effect.told tidy

/-- The tickets that a completion settles name its subscribers, in order. -/
theorem told_subscribers (config : Config) (directory : Path) (calls : List CacheCall)
    {event : CacheEvent} (eventMem : event ∈ (new config directory).history calls)
    {completion : Completion} (answerEq : event.answer = .completed (some completion)) :
    event.told.map Ticket.subscriber = completion.subscribers := by
  rcases told_of_mem_history config directory calls eventMem answerEq with
    ⟨result, record, _, _, _, subscribersEq, toldEq⟩
  rw [toldEq, subscribersEq, Record.tickets, List.map_map]
  simp [Function.comp_def]

/-- After any calls, every ticket is accounted for. -/
theorem deliversOnce_after (config : Config) (directory : Path) (calls : List CacheCall) :
    DeliversOnce ((new config directory).history calls) ((new config directory).after calls) := by
  have conserved := conserved_after config directory calls
  rcases tidy_after config directory calls with ⟨view, tidy⟩
  refine ⟨in_order_after config directory calls, conserved, ?_, ?_, ?_, ?_, ?_, ?_⟩
  · intro event eventMem key generator subscriber status wake callEq answerEq
    rcases effect_of_mem_history config directory calls eventMem with
      ⟨view, next, tidy, nextTidy, effect⟩
    rw [CacheEvent.asked, callEq, answerEq]
    rw [callEq, answerEq] at effect
    exact effect.asked nextTidy
  · intro event eventMem completion answerEq
    exact told_of_mem_history config directory calls eventMem answerEq
  · intro id record present
    exact tidy.held present
  · intro subscriber stranger
    refine ⟨?_, ?_⟩
    · intro id record present subscribed
      have ticketMem := mem_waiting tidy present (mem_tickets subscribed id)
      exact stranger ⟨record.key, id, subscriber⟩
        (conserved.mem_iff.mpr (List.mem_append_right _ ticketMem)) rfl
    · intro event eventMem completion answerEq subscribed
      rw [← told_subscribers config directory calls eventMem answerEq] at subscribed
      rcases List.mem_map.mp subscribed with ⟨ticket, ticketMem, ticketSubscriber⟩
      have toldMem := List.mem_flatMap_of_mem eventMem ticketMem
      exact stranger ticket (conserved.mem_iff.mpr (List.mem_append_left _ toldMem))
        ticketSubscriber
  · intro event eventMem completion answerEq handlers
    have named := told_subscribers config directory calls eventMem answerEq
    rw [Handlers.deliveries, ← named, List.filterMap_map, List.map_filterMap]
    simp [Function.comp_def]
  · intro event eventMem completion answerEq setup perform session
    rw [told_subscribers config directory calls eventMem answerEq, Session.tell_eq_foldl]

end CacheState

end Thumbnails
