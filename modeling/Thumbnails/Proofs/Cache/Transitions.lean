import Thumbnails.Proofs.Cache.Consistency
import Thumbnails.Proofs.Cache.Delivery
import Thumbnails.Proofs.Cache.Expiry
import Thumbnails.Proofs.Cache.Recency

/-!
# Transitions

`CacheEvent.Transition` is the diagram of the life of a record, seen from outside: what an event may
do to the record of a name, whichever record the event is about. `CacheState.Conforms` adds what
follows for a run. A record keeps what it was made with, so a job has the generator of the request
that made its record. And a failure is remembered until it is forgotten.
-/

namespace Thumbnails

/-- The status of a record once the result of its load is there. A record whose request expired is
gone by then. -/
def LoadResult.finalStatus? (result : LoadResult) : Option RecordStatus :=
  match result.status, result.pixmap with
  | .requestExpired, _ => none
  | .loaded, some _ => some .loaded
  | _, _ => some .loadFailed

/-- What a record keeps for as long as it is there. -/
structure Record.SameOrigin (record old : Record) : Prop where
  key : record.key = old.key
  generator : record.generator = old.generator
  createdAt : record.createdAt = old.createdAt

namespace CacheEvent

/-- Whether an event takes away the finished record of a key. -/
def Forgets (event : CacheEvent) (key : ThumbnailKey) : Prop :=
  event.call = .forgetFinished key ∧ event.answer = .flag true

/-- What an event may do to the record of a name. -/
inductive Transition (event : CacheEvent) (id : RecordId) :
    Option Record → Option Record → Prop where
  | absent : Transition event id none none
  | stayed {record old : Record} (statusEq : record.status = old.status)
      (finished : old.status.isFinished = true → record = old) :
      Transition event id (some old) (some record)
  | created {key : ThumbnailKey} {generator : Generator} {subscriber : SubscriberId}
      (asked : event.call = .request key generator subscriber)
      (unnamed : event.before.store.find? key = none) :
      Transition event id none
        (some (.created key generator event.before.clock subscriber))
  | taken {record old : Record} (asked : event.call = .nextJob)
      (answered : event.answer.taken? = some id) (queued : old.status = .queued)
      (inProgress : record.status = .inProgress) : Transition event id (some old) (some record)
  | settled {result : LoadResult} {old : Record} {record : Option Record}
      (completes : event.call = .complete result) (own : result.id = id)
      (inProgress : old.status = .inProgress)
      (statusEq : record.map Record.status = result.finalStatus?) :
      Transition event id (some old) record
  | evicted {old : Record} (makesRoom : event.call.MakesRoom id) (loaded : old.status = .loaded)
      (leastRecent : event.before.store.leastRecentlyUsed? = some id) :
      Transition event id (some old) none
  | forgotten {old : Record} (forgets : event.Forgets old.key)
      (finished : old.status.isFinished = true) : Transition event id (some old) none

/-- A record came from a request of its key, and it still has the generator of that request. -/
def Made (history : List CacheEvent) (id : RecordId) (record : Record) : Prop :=
  ∃ front request since subscriber, history = front ++ request :: since ∧
    request.call = .request record.key record.generator subscriber ∧
    request.creates id = true ∧ record.createdAt = request.before.clock ∧
    ∀ event ∈ since, event.creates id = false

/-- How an event finds the cache when a load of a key has failed. -/
structure Remembers (event : CacheEvent) (key : ThumbnailKey) (pixmap : Option Image) : Prop where
  lookup : event.call = .lookup key → event.answer = .found (some (.loadFailed pixmap))
  request : ∀ generator subscriber, event.call = .request key generator subscriber →
    event.before.shuttingDown = false → event.answer = .status (.loadFailed pixmap) .nothing
  peek : event.call = .peek key → event.before.shuttingDown = false →
    event.answer = .shown (.loadFailed pixmap)
  job : ∀ job, event.answer = .taken (some (.load job)) → job.key ≠ key

end CacheEvent

namespace RecordChange

variable {state : CacheState} {id : RecordId} {call : CacheCall} {answer : CacheAnswer}

theorem sameOrigin {record old : Record}
    (change : RecordChange state id call answer (some old) (some record)) :
    record.SameOrigin old := by
  cases change <;> exact ⟨rfl, rfl, rfl⟩

/-- A failed record stays as it is unless it is forgotten. -/
theorem keeps_failed {old : Record} {new : Option Record}
    (change : RecordChange state id call answer (some old) new) (failed : old.status = .loadFailed)
    (unforgotten : call = .forgetFinished old.key → answer ≠ .flag true) : new = some old := by
  cases change with
  | kept untaken unsettled => rfl
  | joined waiting =>
      rw [failed] at waiting
      cases waiting
  | taken queued own => cases failed.symm.trans queued
  | landed inProgress => cases failed.symm.trans inProgress
  | failed inProgress => cases failed.symm.trans inProgress
  | expired inProgress => cases failed.symm.trans inProgress
  | evicted loaded => cases failed.symm.trans loaded
  | displaced loaded => cases failed.symm.trans loaded
  | forgotten finished => exact absurd rfl (unforgotten rfl)

/-- A load that is told to have failed leaves its record as a failed one. -/
theorem failed_of_told {result : LoadResult} {completion : Completion} {old : Record}
    {new : Option Record}
    (change : RecordChange state result.id (.complete result) (.completed (some completion))
      (some old) new) (failed : completion.notice.status = .loadFailed) :
    new = some (old.failed completion.notice.pixmap) := by
  rcases result with ⟨id, status, pixmap⟩
  cases change with
  | kept untaken unsettled => exact absurd rfl unsettled
  | landed inProgress => cases failed
  | failed inProgress => rfl
  | expired inProgress => cases failed
  | displaced loaded different => exact absurd rfl different

end RecordChange

namespace CacheState

variable {state after : CacheState} {view next : StoreView} {call : CacheCall}
  {answer : CacheAnswer} {id : RecordId} {record : Record} {key : ThumbnailKey}
  {pixmap : Option Image}

/-- A request makes a record only for a key that has none. -/
theorem Effect.unnamed_of_created {generator : Generator} {subscriber : SubscriberId}
    (effect : state.Effect view (.request key generator subscriber) answer after next)
    (absent : view.records id = none) (present : next.records id = some record) :
    view.names key = none := by
  cases effect with
  | requestRefused closing => cases absent.symm.trans present
  | requestAnswered running answers =>
      rw [answers.records_eq] at present
      cases absent.symm.trans present
  | requestJoined running named joined waiting =>
      rw [StoreView.records_join] at present
      split at present
      · rename_i same
        rw [same, joined] at absent
        cases absent
      · cases absent.symm.trans present
  | requestCreated running unnamed fresh => exact unnamed

theorem Tidy.transition (tidy : state.Tidy view) (call : CacheCall) (id : RecordId) :
    CacheEvent.Transition ⟨state, call⟩ id (state.store.get? id)
      ((state.perform call).2.store.get? id) := by
  rcases tidy.perform call with ⟨next, effect, nextTidy⟩
  have change := effect.change tidy.wellFormed tidy.orderly id
  rw [tidy.represents.records, nextTidy.represents.records]
  have evicts : ∀ record, call.MakesRoom id → record.status = .loaded →
      view.records id = some record → next.records id = none →
      CacheEvent.Transition ⟨state, call⟩ id (some record) none := by
    intro record makesRoom loaded present gone
    rcases effect.settled_of_gone makesRoom present gone with ⟨rest, settledEq⟩
    exact .evicted makesRoom loaded (tidy.victim settledEq).1
  generalize answerEq : (state.perform call).1 = answer at change
  generalize oldEq : view.records id = old, newEq : next.records id = new at change
  cases change with
  | kept untaken unsettled =>
      cases old with
      | none => exact .absent
      | some record => exact .stayed rfl fun _ => rfl
  | created =>
      refine .created rfl ?_
      rw [tidy.represents.names]
      exact effect.unnamed_of_created oldEq newEq
  | joined waiting =>
      refine .stayed rfl fun finished => ?_
      cases finished.symm.trans waiting
  | taken queued own =>
      refine .taken rfl ?_ queued rfl
      change (state.perform .nextJob).1.taken? = some id
      rw [answerEq, ← own]
      rfl
  | landed inProgress => exact .settled rfl rfl inProgress rfl
  | failed inProgress failed =>
      refine .settled rfl rfl inProgress ?_
      rcases failed with rfl | ⟨rfl, rfl⟩ <;> rfl
  | expired inProgress => exact .settled rfl rfl inProgress rfl
  | evicted loaded => exact evicts _ trivial loaded oldEq newEq
  | displaced loaded different => exact evicts _ different loaded oldEq newEq
  | forgotten finished => exact .forgotten ⟨rfl, answerEq⟩ finished

theorem Tidy.sameOrigin (tidy : state.Tidy view) (call : CacheCall) {old : Record}
    (found : state.store.get? id = some old)
    (stays : (state.perform call).2.store.get? id = some record) : record.SameOrigin old := by
  rcases tidy.perform call with ⟨next, effect, nextTidy⟩
  have change := effect.change tidy.wellFormed tidy.orderly id
  rw [← tidy.represents.records, ← nextTidy.represents.records, found, stays] at change
  exact change.sameOrigin

/-- A call that finds a record takes over where it came from, and otherwise made it. -/
theorem Tidy.made (tidy : state.Tidy view) {history : List CacheEvent}
    (made : ∀ id record, state.store.get? id = some record → CacheEvent.Made history id record)
    (found : (state.perform call).2.store.get? id = some record) :
    CacheEvent.Made (history ++ [⟨state, call⟩]) id record := by
  cases foundBefore : state.store.get? id with
  | none =>
      have transition := tidy.transition call id
      rw [foundBefore, found] at transition
      cases transition with
      | created asked unnamed =>
          refine ⟨history, ⟨state, call⟩, [], _, rfl, asked, ?_, rfl, ?_⟩
          · simp [CacheEvent.creates, CacheEvent.after, foundBefore, found]
          · simp
  | some old =>
      have same := tidy.sameOrigin call foundBefore found
      rcases made id old foundBefore with
        ⟨front, request, since, subscriber, historyEq, asked, created, stampEq, quiet⟩
      refine ⟨front, request, since ++ [⟨state, call⟩], subscriber, ?_, ?_, created, ?_, ?_⟩
      · simp [historyEq]
      · rw [same.key, same.generator]
        exact asked
      · rw [same.createdAt, stampEq]
      · intro event eventMem
        rcases List.mem_append.mp eventMem with early | last
        · exact quiet event early
        · rw [List.mem_singleton.mp last]
          simp [CacheEvent.creates, foundBefore]

/-- A request for a key that has no record makes one, unless the cache is shutting down. -/
theorem Tidy.creates (tidy : state.Tidy view) (generator : Generator) (subscriber : SubscriberId)
    (running : state.shuttingDown = false) (unnamed : state.store.find? key = none) :
    ∃ id, CacheEvent.creates ⟨state, .request key generator subscriber⟩ id = true := by
  rcases tidy.perform (.request key generator subscriber) with ⟨next, effect, nextTidy⟩
  rw [tidy.represents.names] at unnamed
  have made : ∃ id record, view.records id = none ∧ next.records id = some record := by
    generalize (state.perform (.request key generator subscriber)).2 = after at effect
    generalize (state.perform (.request key generator subscriber)).1 = answer at effect
    cases effect with
    | requestRefused closing => cases closing.symm.trans running
    | requestAnswered otherRunning answers =>
        cases answers with
        | hit named => cases named.symm.trans unnamed
        | failed named => cases named.symm.trans unnamed
    | requestJoined otherRunning named => cases named.symm.trans unnamed
    | requestCreated otherRunning otherUnnamed fresh =>
        exact ⟨_, _, fresh, by rw [StoreView.records_insert, if_pos rfl]⟩
  rcases made with ⟨id, record, absent, present⟩
  rw [← tidy.represents.records] at absent
  rw [← nextTidy.represents.records] at present
  exact ⟨id, by simp [CacheEvent.creates, CacheEvent.after, absent, present]⟩

/-- A result settles a record in progress, unless the cache is shutting down. -/
theorem Tidy.settles (tidy : state.Tidy view) (result : LoadResult)
    (running : state.shuttingDown = false)
    (inProgress : state.store.statusOf? result.id = some .inProgress) :
    (state.perform (.complete result)).2.store.statusOf? result.id = result.finalStatus? := by
  rcases tidy.perform (.complete result) with ⟨next, effect, nextTidy⟩
  rw [tidy.statusOf?_eq] at inProgress
  rw [nextTidy.statusOf?_eq, StoreView.statusOf?]
  generalize (state.perform (.complete result)).2 = after at effect
  generalize (state.perform (.complete result)).1 = answer at effect
  cases effect with
  | resultDropped dropped =>
      rcases dropped with closing | settled
      · cases closing.symm.trans running
      · exact absurd inProgress settled
  | resultLanded otherRunning present =>
      rw [StoreView.records_land, if_pos rfl]
      rfl
  | resultExpired otherRunning present =>
      rw [StoreView.records_remove, if_pos rfl]
      rfl
  | resultFailed otherRunning present _ failed =>
      rw [StoreView.records_fail, if_pos rfl]
      rcases failed with rfl | ⟨rfl, rfl⟩ <;> rfl

/-- A job says of its record what the record says, and whose turn it is has been queued. -/
theorem Tidy.job (tidy : state.Tidy view) {job : LoadJob}
    (answerEq : (state.perform call).1 = .taken (some (.load job))) : ∃ record,
      state.store.get? job.id = some record ∧ job.key = record.key ∧
        job.generator = record.generator ∧ record.status = .queued := by
  rcases tidy.perform call with ⟨next, effect, _⟩
  rw [answerEq] at effect
  generalize (state.perform call).2 = after at effect
  cases effect with
  | jobStarted first present queued timely =>
      exact ⟨_, (tidy.represents.records _).trans present, rfl, rfl, queued⟩

/-- Whether the last load of a key has failed, and with which pixmap. -/
def HasFailed (state : CacheState) (key : ThumbnailKey) (pixmap : Option Image) : Prop :=
  ∃ id record, state.store.find? key = some id ∧ state.store.get? id = some record ∧
    record.status = .loadFailed ∧ record.pixmap = pixmap

theorem HasFailed.lookup_eq (hasFailed : state.HasFailed key pixmap) :
    state.lookup key = (some (.loadFailed pixmap), state) := by
  rcases hasFailed with ⟨id, record, named, found, failed, pixmapEq⟩
  simp [lookup, named, found, failed, pixmapEq]

theorem HasFailed.remembers (hasFailed : state.HasFailed key pixmap) (tidy : state.Tidy view)
    (call : CacheCall) : CacheEvent.Remembers ⟨state, call⟩ key pixmap where
  lookup callEq := by
    change call = _ at callEq
    simp [CacheEvent.answer, callEq, perform, hasFailed.lookup_eq]
  request generator subscriber callEq running := by
    change call = _ at callEq
    change state.shuttingDown = false at running
    simp [CacheEvent.answer, callEq, perform, CacheState.request, running, hasFailed.lookup_eq]
  peek callEq running := by
    change call = _ at callEq
    change state.shuttingDown = false at running
    simp [CacheEvent.answer, callEq, perform, CacheState.peek, running, hasFailed.lookup_eq]
  job job answerEq := by
    rintro rfl
    rcases hasFailed with ⟨failedId, failedRecord, named, found, failed, _⟩
    rcases tidy.job answerEq with ⟨record, present, keyEq, _, queued⟩
    cases (tidy.held present).1.symm.trans (keyEq ▸ named)
    cases present.symm.trans found
    cases queued.symm.trans failed

/-- A failure is remembered by every call but one that forgets it. -/
theorem HasFailed.perform (hasFailed : state.HasFailed key pixmap) (tidy : state.Tidy view)
    (unforgotten : ¬CacheEvent.Forgets ⟨state, call⟩ key) :
    (state.perform call).2.HasFailed key pixmap := by
  rcases hasFailed with ⟨id, record, named, found, failed, pixmapEq⟩
  rcases tidy.perform call with ⟨next, effect, nextTidy⟩
  rw [tidy.represents.names] at named
  rw [tidy.represents.records] at found
  have keyEq := tidy.wellFormed.key_eq named found
  have change := effect.change tidy.wellFormed tidy.orderly id
  rw [found] at change
  have stays := change.keeps_failed failed fun callEq answerEq =>
    unforgotten ⟨by rw [callEq, keyEq], answerEq⟩
  refine ⟨id, record, ?_, ?_, failed, pixmapEq⟩
  · rw [nextTidy.represents.names, ← keyEq]
    exact nextTidy.wellFormed.names_eq stays
  · rw [nextTidy.represents.records, stays]

/-- A load that is told to have failed is remembered as such. -/
theorem Tidy.hasFailed (tidy : state.Tidy view) {result : LoadResult} {completion : Completion}
    (answerEq : (state.perform (.complete result)).1 = .completed (some completion))
    (failed : completion.notice.status = .loadFailed)
    (found : state.store.get? result.id = some record) :
    (state.perform (.complete result)).2.HasFailed record.key completion.notice.pixmap := by
  rcases tidy.perform (.complete result) with ⟨next, effect, nextTidy⟩
  have change := effect.change tidy.wellFormed tidy.orderly result.id
  rw [answerEq, ← tidy.represents.records, found] at change
  have stays := change.failed_of_told failed
  refine ⟨result.id, record.failed completion.notice.pixmap, ?_, ?_, rfl, rfl⟩
  · rw [nextTidy.represents.names]
    change next.names (record.failed completion.notice.pixmap).key = _
    exact nextTidy.wellFormed.names_eq stays
  · rw [nextTidy.represents.records, stays]

/-- As long as a failure is not forgotten, every event finds that it is remembered. -/
theorem HasFailed.remembers_of_history (hasFailed : state.HasFailed key pixmap)
    (tidy : state.Tidy view) {calls : List CacheCall} {front rest : List CacheEvent}
    {event : CacheEvent} (historyEq : state.history calls = front ++ event :: rest)
    (unforgotten : ∀ other ∈ front, ¬other.Forgets key) : event.Remembers key pixmap := by
  induction front generalizing state view calls with
  | nil =>
      cases calls with
      | nil => cases historyEq
      | cons call calls =>
          cases historyEq
          exact hasFailed.remembers tidy call
  | cons first front ih =>
      cases calls with
      | nil => cases historyEq
      | cons call calls =>
          rw [history, List.cons_append, List.cons_eq_cons] at historyEq
          rcases historyEq with ⟨rfl, tailEq⟩
          rcases tidy.perform call with ⟨next, _, nextTidy⟩
          have kept := hasFailed.perform tidy (unforgotten _ List.mem_cons_self)
          exact ih kept nextTidy tailEq fun other otherMem =>
            unforgotten other (List.mem_cons_of_mem _ otherMem)

theorem made_after (config : Config) (directory : Path) (calls : List CacheCall) (id : RecordId)
    (record : Record) (found : ((new config directory).after calls).store.get? id = some record) :
    CacheEvent.Made ((new config directory).history calls) id record := by
  induction calls using List.reverseRecOn generalizing id record with
  | nil => cases ((Tidy.new config directory).represents.records id).symm.trans found
  | append_singleton calls call ih =>
      rcases tidy_after config directory calls with ⟨view, tidy⟩
      rw [after_concat] at found
      rw [history_concat]
      exact tidy.made ih found

/-- Records live as the diagram has it, as far as a run of calls goes. -/
structure Conforms (start : CacheState) (calls : List CacheCall) : Prop where
  transitions : ∀ event ∈ start.history calls, ∀ id,
    event.Transition id (event.before.store.get? id) (event.after.store.get? id)
  identity : ∀ event ∈ start.history calls, ∀ id old record,
    event.before.store.get? id = some old → event.after.store.get? id = some record →
      record.SameOrigin old
  origins : ∀ id record, (start.after calls).store.get? id = some record →
    CacheEvent.Made (start.history calls) id record
  /-- A job is for the record that it names, and that has its generator from the request that made
  it. -/
  jobs : ∀ front event rest, start.history calls = front ++ event :: rest →
    ∀ job, event.answer = .taken (some (.load job)) → ∃ record,
      event.before.store.get? job.id = some record ∧ job.key = record.key ∧
      job.generator = record.generator ∧ CacheEvent.Made front job.id record
  /-- What was told of a load that failed is what everybody is answered from then on, until the
  record of the key is forgotten. -/
  failures : ∀ front failure middle event rest,
    start.history calls = front ++ failure :: (middle ++ event :: rest) →
    ∀ result record completion, failure.call = .complete result →
      failure.answer = .completed (some completion) → completion.notice.status = .loadFailed →
      failure.before.store.get? result.id = some record →
      (∀ other ∈ middle, ¬other.Forgets record.key) →
      event.Remembers record.key completion.notice.pixmap
  /-- A request for a key that has no record makes one. -/
  creations : ∀ event ∈ start.history calls, ∀ key generator subscriber,
    event.call = .request key generator subscriber → event.before.shuttingDown = false →
    event.before.store.find? key = none → ∃ id, event.creates id = true
  /-- A result for a record in progress gives it its final status or takes it away. -/
  settlements : ∀ event ∈ start.history calls, ∀ result,
    event.call = .complete result → event.before.shuttingDown = false →
    event.before.store.statusOf? result.id = some .inProgress →
      event.after.store.statusOf? result.id = result.finalStatus?

/-- Records live as the diagram has it in every run, whatever the cache was set up with. -/
theorem conforms_after (config : Config) (directory : Path) (calls : List CacheCall) :
    (new config directory).Conforms calls := by
  have tidyBefore : ∀ event ∈ (new config directory).history calls, ∃ view,
      event.before.Tidy view := by
    intro event eventMem
    rcases effect_of_mem_history config directory calls eventMem with ⟨view, _, tidy, _⟩
    exact ⟨view, tidy⟩
  refine ⟨?_, ?_, made_after config directory calls, ?_, ?_, ?_, ?_⟩
  · intro event eventMem id
    rcases tidyBefore event eventMem with ⟨view, tidy⟩
    exact tidy.transition event.call id
  · intro event eventMem id old record found stays
    rcases tidyBefore event eventMem with ⟨view, tidy⟩
    exact tidy.sameOrigin event.call found stays
  · intro front event rest historyEq job answerEq
    rcases calls_of_history historyEq with ⟨earlier, later, frontEq, beforeEq, _, _⟩
    rcases tidy_after config directory earlier with ⟨view, tidy⟩
    have made := made_after config directory earlier
    rw [beforeEq] at tidy made
    rcases tidy.job answerEq with ⟨record, found, keyEq, generatorEq, _⟩
    exact ⟨record, found, keyEq, generatorEq, frontEq ▸ made job.id record found⟩
  · intro front failure middle event rest historyEq result record completion callEq answerEq failed
      found unforgotten
    rcases calls_of_history historyEq with ⟨earlier, later, _, beforeEq, restEq, _⟩
    rcases tidy_after config directory earlier with ⟨view, tidy⟩
    rw [beforeEq] at tidy
    rcases tidy.perform failure.call with ⟨next, _, nextTidy⟩
    have hasFailed : failure.after.HasFailed record.key completion.notice.pixmap := by
      rw [CacheEvent.answer, callEq] at answerEq
      rw [CacheEvent.after, callEq]
      exact tidy.hasFailed answerEq failed found
    exact hasFailed.remembers_of_history nextTidy restEq unforgotten
  · intro event eventMem key generator subscriber callEq running unnamed
    rcases tidyBefore event eventMem with ⟨view, tidy⟩
    rcases event with ⟨before, call⟩
    cases callEq
    exact tidy.creates generator subscriber running unnamed
  · intro event eventMem result callEq running inProgress
    rcases tidyBefore event eventMem with ⟨view, tidy⟩
    rw [CacheEvent.after, callEq]
    exact tidy.settles result running inProgress

/-- A page that could not be loaded is not tried again, although another one has come in and the
directory is a different one by then. Once it is forgotten, it is a page like any other. -/
example : ((new hastyConfig ⟨[0x2f]⟩).history
      [.request (letterPage 0x61) (.constant .crashed) 0, .nextJob,
        .complete ⟨⟨0, 0⟩, .loadFailed, none⟩, .request (letterPage 0x62) (.constant .crashed) 1,
        .nextJob, .complete ⟨⟨1, 0⟩, .loadFailed, none⟩, .changeDirectory ⟨[0x2f, 0x78]⟩,
        .request (letterPage 0x61) (.constant .crashed) 2, .nextJob,
        .forgetFinished (letterPage 0x61),
        .request (letterPage 0x61) (.constant .crashed) 3]).filterMap (fun event =>
      match event.answer with
      | .status status _ => some status
      | _ => none) = [.queued, .queued, .loadFailed none, .queued] := by
  decide

end CacheState

end Thumbnails
