import Mathlib.Data.List.DropRight
import Thumbnails.Proofs.Cache.Lifecycle
import Thumbnails.Proofs.Cache.Tidy

/-!
# Expiry

The expiry clock counts the loads that were started, and it jumps over the threshold when everything
that is queued is to become stale. A record only remembers what the clock showed when it was made.
`CacheState.ExpiresExactly` says what this comes to, in terms of what happened: a record that is
taken from the queue has expired if, since the request that made it, something was invalidated or
more loads were started than the threshold allows.

That holds as long as the clock does not reach its end, which takes more than `UInt32.size` calls.
-/

namespace Thumbnails

/-- Whether an answer hands a job to the loader. -/
def CacheAnswer.startsLoad : CacheAnswer → Bool
  | .taken (some (.load _)) => true
  | _ => false

/-- Whether a call makes stale whatever is queued. -/
def CacheCall.invalidates : CacheCall → CacheAnswer → Bool
  | .changeDirectory _, .flag changed => changed
  | .expireQueued, _ => true
  | _, _ => false

namespace CacheEvent

def startsLoad (event : CacheEvent) : Bool :=
  event.answer.startsLoad

def invalidates (event : CacheEvent) : Bool :=
  event.call.invalidates event.answer

/-- Whether an event makes the record of a name. -/
def creates (event : CacheEvent) (id : RecordId) : Bool :=
  (event.before.store.get? id).isNone && (event.after.store.get? id).isSome

/-- The events after the last one that made the record of a name. -/
def sinceCreated (history : List CacheEvent) (id : RecordId) : List CacheEvent :=
  history.rtakeWhile fun event => !event.creates id

theorem sinceCreated_concat (history : List CacheEvent) (event : CacheEvent) (id : RecordId) :
    sinceCreated (history ++ [event]) id =
      if event.creates id then [] else sinceCreated history id ++ [event] := by
  rw [sinceCreated, List.rtakeWhile_concat]
  cases event.creates id <;> rfl

end CacheEvent

open CacheEvent

/-- A record that is there after a call was made by it, or was there before with the same key and
the same stamp. No call puts a record back into the queue. -/
theorem RecordChange.stems {state : CacheState} {id : RecordId} {call : CacheCall}
    {answer : CacheAnswer} {old : Option Record} {record : Record}
    (change : RecordChange state id call answer old (some record)) :
    (old = none ∧ ∃ key generator subscriber wake, call = .request key generator subscriber ∧
      answer = .status .queued wake ∧ record = .created key generator state.clock subscriber) ∨
    ∃ before, old = some before ∧ record.createdAt = before.createdAt ∧
      (record.status = .queued → before.status = .queued) := by
  cases change with
  | kept untaken unsettled => exact .inr ⟨record, rfl, rfl, fun queued => queued⟩
  | created => exact .inl ⟨rfl, _, _, _, _, rfl, rfl, rfl⟩
  | joined waiting => exact .inr ⟨_, rfl, rfl, fun queued => queued⟩
  | taken queued own => exact .inr ⟨_, rfl, rfl, nofun⟩
  | landed inProgress => exact .inr ⟨_, rfl, rfl, nofun⟩
  | failed inProgress failed => exact .inr ⟨_, rfl, rfl, nofun⟩

namespace CacheState

variable {state after : CacheState} {view next : StoreView} {call : CacheCall}
  {answer : CacheAnswer}

@[simp]
theorem expireQueued_threshold (state : CacheState) :
    state.expireQueued.threshold = state.threshold := by
  rcases expireQueued_eq state with ⟨clock, expired⟩
  rw [expired]

@[simp]
theorem expireQueued_loadsStarted (state : CacheState) :
    state.expireQueued.loadsStarted = state.loadsStarted := by
  rcases expireQueued_eq state with ⟨clock, expired⟩
  rw [expired]

theorem saturatingAdd_eq {counter amount : Nat} (fits : counter + amount ≤ counterLimit) :
    saturatingAdd counter amount = counter + amount :=
  Nat.min_eq_left fits

theorem expireQueued_clock (unsaturated : state.clock + state.threshold + 1 ≤ counterLimit) :
    state.expireQueued.clock =
      state.clock + if 0 < state.store.queuedCount then state.threshold + 1 else 0 := by
  simp only [expireQueued]
  split
  · have first : saturatingAdd state.clock state.threshold = state.clock + state.threshold :=
      saturatingAdd_eq (by omega)
    change saturatingAdd (saturatingAdd state.clock state.threshold) 1 = _
    rw [first, saturatingAdd_eq unsaturated, Nat.add_assoc]
  · rfl

namespace Effect

theorem threshold_eq (effect : state.Effect view call answer after next) :
    after.threshold = state.threshold := by
  cases effect with
  | directoryChanged different => simp
  | expireQueued => simp
  | _ => rfl

/-- The directory only changes along with what is queued. -/
theorem directory_eq (effect : state.Effect view call answer after next)
    (valid : call.invalidates answer = false) : after.directory = state.directory := by
  cases effect with
  | directoryChanged different => cases valid
  | expireQueued => cases valid
  | _ => rfl

theorem loadsStarted_eq (effect : state.Effect view call answer after next)
    (unsaturated : state.loadsStarted + 1 ≤ counterLimit) :
    after.loadsStarted = state.loadsStarted + if answer.startsLoad then 1 else 0 := by
  cases effect with
  | jobStarted first present queued timely => exact saturatingAdd_eq unsaturated
  | directoryChanged different => simp [CacheAnswer.startsLoad]
  | expireQueued => simp [CacheAnswer.startsLoad]
  | _ => rfl

/-- The clock counts loads, and jumps if something is queued when it is invalidated. -/
theorem clock_eq (effect : state.Effect view call answer after next)
    (unsaturated : state.clock + state.threshold + 1 ≤ counterLimit) :
    after.clock = state.clock + (if answer.startsLoad then 1 else 0) +
      if call.invalidates answer = true ∧ 0 < state.store.queuedCount then state.threshold + 1
      else 0 := by
  cases effect with
  | jobStarted first present queued timely =>
      have counted : saturatingAdd state.clock 1 = state.clock + 1 := saturatingAdd_eq (by omega)
      simp [CacheAnswer.startsLoad, CacheCall.invalidates, counted]
  | directoryChanged different =>
      rename_i directory
      have jumped := @expireQueued_clock { state with directory } unsaturated
      simpa [CacheAnswer.startsLoad, CacheCall.invalidates] using jumped
  | expireQueued =>
      have jumped := expireQueued_clock unsaturated
      simpa [CacheAnswer.startsLoad, CacheCall.invalidates] using jumped
  | _ => simp [CacheAnswer.startsLoad, CacheCall.invalidates]

/-- What invalidates starts no load. -/
theorem startsLoad_eq_false (effect : state.Effect view call answer after next)
    (invalid : call.invalidates answer = true) : answer.startsLoad = false := by
  cases effect with
  | directoryChanged different => rfl
  | expireQueued => rfl
  | _ => cases invalid

theorem clock_le (effect : state.Effect view call answer after next)
    (unsaturated : state.clock + state.threshold + 1 ≤ counterLimit) :
    after.clock ≤ state.clock + (state.threshold + 1) := by
  rw [effect.clock_eq unsaturated]
  cases invalid : call.invalidates answer with
  | false =>
      simp only [Bool.false_eq_true, false_and, if_false]
      split <;> omega
  | true =>
      simp only [effect.startsLoad_eq_false invalid, Bool.false_eq_true, if_false, true_and]
      split <;> omega

end Effect

theorem threshold_after (config : Config) (directory : Path) (calls : List CacheCall) :
    ((new config directory).after calls).threshold =
      min config.expirationThreshold.toNat (UInt32.size - 1) := by
  induction calls using after_induction with
  | start => rfl
  | step calls call ih =>
      rcases tidy_after config directory calls with ⟨view, tidy⟩
      rcases tidy.perform call with ⟨next, effect, _⟩
      rw [effect.threshold_eq, ih]

/-- What the clock shows while a record waits, and where the record came from. -/
structure Waits (state : CacheState) (history : List CacheEvent) (id : RecordId)
    (record : Record) : Prop where
  clock : state.clock = record.createdAt +
    (sinceCreated history id).countP CacheEvent.startsLoad +
      (state.threshold + 1) * (sinceCreated history id).countP CacheEvent.invalidates
  origin : ∃ earlier request, history = earlier ++ request :: sinceCreated history id ∧
    request.creates id = true ∧
    (∃ key generator subscriber, request.call = .request key generator subscriber) ∧
    ((sinceCreated history id).countP CacheEvent.invalidates = 0 →
      state.directory = request.before.directory)

/-- The clock has counted what happened so far. -/
structure Clocked (state : CacheState) (history : List CacheEvent) : Prop where
  clock_le : state.clock ≤ history.length * (state.threshold + 1)
  loadsStarted : state.loadsStarted = history.countP CacheEvent.startsLoad
  stamps : ∀ id record, state.store.get? id = some record → record.createdAt ≤ state.clock
  waits : ∀ id record, state.store.get? id = some record → record.status = .queued →
    state.Waits history id record

/-- No operation on the counters reaches their end. -/
structure Unsaturated (state : CacheState) : Prop where
  clock : state.clock + state.threshold + 1 ≤ counterLimit
  loadsStarted : state.loadsStarted + 1 ≤ counterLimit

variable {history : List CacheEvent} {id : RecordId} {record : Record}

theorem Clocked.unsaturated (clocked : state.Clocked history)
    (short : history.length + 1 < UInt32.size) (bounded : state.threshold < UInt32.size) :
    state.Unsaturated := by
  have limitEq : counterLimit = UInt64.size - 1 := rfl
  have jumps : (history.length + 1) * (state.threshold + 1) ≤ (UInt32.size - 1) * UInt32.size :=
    Nat.mul_le_mul (by omega) bounded
  have clock_le := clocked.clock_le
  rw [Nat.add_mul, Nat.one_mul] at jumps
  refine ⟨?_, ?_⟩
  · simp only [UInt32.size, UInt64.size] at jumps limitEq
    omega
  · have counted : history.countP CacheEvent.startsLoad ≤ history.length := List.countP_le_length
    rw [clocked.loadsStarted]
    simp only [UInt32.size, UInt64.size] at short limitEq
    omega

/-- A queued record is counted as such. -/
theorem Tidy.queuedCount_pos (tidy : state.Tidy view) (present : view.records id = some record)
    (queued : record.status = .queued) : 0 < state.store.queuedCount := by
  rw [tidy.represents.queuedCount]
  apply List.countP_pos_iff.mpr
  exact ⟨id, tidy.wellFormed.load_mem present, by simp [StoreView.statusOf?_eq present, queued]⟩

theorem countP_concat (events : List CacheEvent) (event : CacheEvent)
    (counted : CacheEvent → Bool) : (events ++ [event]).countP counted =
      events.countP counted + if counted event then 1 else 0 := by
  rw [List.countP_append, List.countP_singleton]

/-- A call moves the clock for a record that waits through it by what it adds to the counts. -/
theorem Waits.step (waits : state.Waits history id record) (unsaturated : state.Unsaturated)
    (effect : state.Effect view call (state.perform call).1 (state.perform call).2 next)
    (waiting : 0 < state.store.queuedCount) (kept : CacheEvent.creates ⟨state, call⟩ id = false)
    {new : Record} (stampEq : new.createdAt = record.createdAt) :
    (state.perform call).2.Waits (history ++ [⟨state, call⟩]) id new := by
  have sinceEq : sinceCreated (history ++ [⟨state, call⟩]) id =
      sinceCreated history id ++ [⟨state, call⟩] := by
    rw [sinceCreated_concat, kept]
    rfl
  have starts := countP_concat (sinceCreated history id) ⟨state, call⟩ CacheEvent.startsLoad
  have jumps := countP_concat (sinceCreated history id) ⟨state, call⟩ CacheEvent.invalidates
  change _ = _ + if (state.perform call).1.startsLoad then 1 else 0 at starts
  change _ = _ + if call.invalidates (state.perform call).1 then 1 else 0 at jumps
  rcases waits.origin with ⟨earlier, request, historyEq, created, asked, directoryEq⟩
  refine ⟨?_, ⟨earlier, request, ?_, created, asked, ?_⟩⟩
  · rw [sinceEq, starts, jumps, effect.clock_eq unsaturated.clock, effect.threshold_eq,
      waits.clock, stampEq]
    cases call.invalidates (state.perform call).1
    · simp only [Bool.false_eq_true, false_and, if_false, Nat.add_zero]
      omega
    · simp only [true_and, waiting, if_true, Nat.mul_add]
      omega
  · rw [sinceEq]
    nth_rewrite 1 [historyEq]
    simp
  · rw [sinceEq, jumps]
    cases quiet : call.invalidates (state.perform call).1 with
    | false => simpa [effect.directory_eq quiet] using directoryEq
    | true => simp

/-- A record that was just made has waited for nothing so far. -/
theorem waits_created (effect : state.Effect view call (state.perform call).1
      (state.perform call).2 next) (unsaturated : state.Unsaturated)
    (created : CacheEvent.creates ⟨state, call⟩ id = true)
    (asked : ∃ key generator subscriber, call = .request key generator subscriber)
    (stampEq : record.createdAt = state.clock) :
    (state.perform call).2.Waits (history ++ [⟨state, call⟩]) id record := by
  have sinceEq : sinceCreated (history ++ [⟨state, call⟩]) id = [] := by
    rw [sinceCreated_concat, if_pos created]
  rcases asked with ⟨key, generator, subscriber, rfl⟩
  have quiet : (CacheCall.request key generator subscriber).invalidates
      (state.perform (.request key generator subscriber)).1 = false := rfl
  have idle : (state.perform (.request key generator subscriber)).1.startsLoad = false := rfl
  refine ⟨?_, ⟨history, ⟨state, _⟩, by rw [sinceEq], created, ⟨_, _, _, rfl⟩, fun _ => ?_⟩⟩
  · rw [sinceEq, effect.clock_eq unsaturated.clock, quiet, idle, stampEq]
    simp
  · exact effect.directory_eq quiet

/-- What a record that is there after a call has to do with the call. -/
theorem Tidy.stems (tidy : state.Tidy view) (nextTidy : (state.perform call).2.Tidy next)
    (effect : state.Effect view call (state.perform call).1 (state.perform call).2 next)
    (found : (state.perform call).2.store.get? id = some record) :
    (CacheEvent.creates ⟨state, call⟩ id = true ∧ record.createdAt = state.clock ∧
      ∃ key generator subscriber, call = .request key generator subscriber) ∨
    (CacheEvent.creates ⟨state, call⟩ id = false ∧ ∃ before,
      state.store.get? id = some before ∧ record.createdAt = before.createdAt ∧
      (record.status = .queued → before.status = .queued)) := by
  have change := effect.change tidy.wellFormed tidy.orderly id
  rw [← nextTidy.represents.records, ← tidy.represents.records, found] at change
  rcases change.stems with ⟨absent, key, generator, subscriber, wake, callEq, _, recordEq⟩ |
    ⟨before, present, stampEq, queued⟩
  · refine .inl ⟨?_, by rw [recordEq]; rfl, _, _, _, callEq⟩
    simp [CacheEvent.creates, CacheEvent.after, found, absent]
  · refine .inr ⟨?_, before, present, stampEq, queued⟩
    simp [CacheEvent.creates, present]

theorem Clocked.step (clocked : state.Clocked history) (unsaturated : state.Unsaturated)
    (tidy : state.Tidy view) (call : CacheCall) :
    (state.perform call).2.Clocked (history ++ [⟨state, call⟩]) := by
  rcases tidy.perform call with ⟨next, effect, nextTidy⟩
  have clockEq := effect.clock_eq unsaturated.clock
  refine ⟨?_, ?_, ?_, ?_⟩
  · have clock_le := clocked.clock_le
    rw [effect.threshold_eq, List.length_append, List.length_singleton, Nat.add_mul, Nat.one_mul]
    exact Nat.le_trans (effect.clock_le unsaturated.clock) (Nat.add_le_add_right clock_le _)
  · rw [effect.loadsStarted_eq unsaturated.loadsStarted, countP_concat, clocked.loadsStarted]
    rfl
  · intro id record found
    rcases tidy.stems nextTidy effect found with ⟨_, stampEq, _⟩ | ⟨_, before, present, stampEq, _⟩
    · omega
    · have stamped := clocked.stamps id before present
      omega
  · intro id record found queued
    rcases tidy.stems nextTidy effect found with ⟨created, stampEq, asked⟩ |
      ⟨kept, before, present, stampEq, wasQueued⟩
    · exact waits_created effect unsaturated created asked stampEq
    · have waits := clocked.waits id before present (wasQueued queued)
      rw [tidy.represents.records] at present
      exact waits.step unsaturated effect
        (tidy.queuedCount_pos present (wasQueued queued)) kept stampEq

theorem clocked_new (config : Config) (directory : Path) :
    (new config directory).Clocked [] := by
  have represents := (Tidy.new config directory).represents
  refine ⟨Nat.zero_le _, rfl, ?_, ?_⟩
  · intro id record found
    cases (represents.records id).symm.trans found
  · intro id record found
    cases (represents.records id).symm.trans found

theorem length_history (state : CacheState) (calls : List CacheCall) :
    (state.history calls).length = calls.length := by
  induction calls generalizing state with
  | nil => rfl
  | cons call calls ih => rw [history, List.length_cons, List.length_cons, ih]

/-- A run that is short enough for one more call has used up little of the counters. -/
theorem Clocked.unsaturated_after {config : Config} {directory : Path} {calls : List CacheCall}
    (clocked : ((new config directory).after calls).Clocked
      ((new config directory).history calls))
    (short : calls.length + 1 < UInt32.size) :
    ((new config directory).after calls).Unsaturated := by
  apply clocked.unsaturated
  · rwa [length_history]
  · rw [threshold_after]
    exact Nat.lt_of_le_of_lt (Nat.min_le_right _ _) (by decide)

/-- As long as a run is short, the clock has counted it. -/
theorem clocked_after (config : Config) (directory : Path) (calls : List CacheCall)
    (short : calls.length < UInt32.size) :
    ((new config directory).after calls).Clocked ((new config directory).history calls) := by
  induction calls using List.reverseRecOn with
  | nil => exact clocked_new config directory
  | append_singleton calls call ih =>
      rw [List.length_append, List.length_singleton] at short
      have clocked := ih (by omega)
      rcases tidy_after config directory calls with ⟨view, tidy⟩
      rw [after_concat, history_concat]
      exact clocked.step (clocked.unsaturated_after short) tidy call

/-- By the clock, a record is too old if and only if what happened since it was made says so. -/
theorem Waits.expired_iff (waits : state.Waits history id record) :
    state.threshold < state.clock - record.createdAt ↔
      (∃ event ∈ sinceCreated history id, event.invalidates = true) ∨
        state.threshold < (sinceCreated history id).countP CacheEvent.startsLoad := by
  rw [← List.countP_pos_iff, waits.clock]
  rcases Nat.eq_zero_or_pos ((sinceCreated history id).countP CacheEvent.invalidates) with
    valid | invalid
  · rw [valid, Nat.mul_zero]
    omega
  · have jumped := Nat.le_mul_of_pos_right (state.threshold + 1) invalid
    omega

theorem not_creates_of_mem_sinceCreated {event : CacheEvent}
    (eventMem : event ∈ sinceCreated history id) : event.creates id = false := by
  simpa using List.mem_rtakeWhile_imp eventMem

/-- Records expire when they should, as far as a run of calls goes. -/
structure ExpiresExactly (start : CacheState) (threshold : Nat) (calls : List CacheCall) :
    Prop where
  /-- What is dequeued was made by a request. It is expired if anything was invalidated since
  then, or too many loads were started. If not, its job is for the directory of that time. -/
  dequeues : ∀ earlier dequeued, earlier ++ [.nextJob] <+: calls →
    (start.after earlier).nextJob.1 = some dequeued → ∃ front request since,
      start.history earlier = front ++ request :: since ∧
      (∃ key generator subscriber, request.call = .request key generator subscriber) ∧
      request.creates dequeued.id = true ∧
      (∀ event ∈ since, event.creates dequeued.id = false) ∧
      (dequeued = .expired dequeued.id ↔ (∃ event ∈ since, event.invalidates = true) ∨
        threshold < since.countP CacheEvent.startsLoad) ∧
      ∀ job, dequeued = .load job → job.directory = request.before.directory
  unsaturated : ∀ earlier call, earlier ++ [call] <+: calls → (start.after earlier).Unsaturated
  stamps : ∀ id record, (start.after calls).store.get? id = some record →
    record.createdAt ≤ (start.after calls).clock
  loadAttempts : (start.after calls).stats.loadAttempts =
    (start.history calls).countP CacheEvent.startsLoad

theorem Clocked.dequeues (clocked : state.Clocked history) (tidy : state.Tidy view)
    {dequeued : Dequeued} (taken : state.nextJob.1 = some dequeued) : ∃ front request since,
      history = front ++ request :: since ∧
      (∃ key generator subscriber, request.call = .request key generator subscriber) ∧
      request.creates dequeued.id = true ∧
      (∀ event ∈ since, event.creates dequeued.id = false) ∧
      (dequeued = .expired dequeued.id ↔ (∃ event ∈ since, event.invalidates = true) ∨
        state.threshold < since.countP CacheEvent.startsLoad) ∧
      ∀ job, dequeued = .load job → job.directory = request.before.directory := by
  rcases tidy.nextJob with ⟨next, effect, _⟩
  change state.Effect view .nextJob (.taken state.nextJob.1) state.nextJob.2 next at effect
  rw [taken] at effect
  generalize state.nextJob.2 = after at effect
  cases effect with
  | jobExpired first present queued stale =>
      rw [← tidy.represents.records] at present
      have waits := clocked.waits _ _ present queued
      rcases waits.origin with ⟨front, request, historyEq, created, asked, _⟩
      refine ⟨front, request, _, historyEq, asked, created,
        fun _ => not_creates_of_mem_sinceCreated, ?_, nofun⟩
      exact iff_of_true rfl (waits.expired_iff.mp stale)
  | jobStarted first present queued timely =>
      rw [← tidy.represents.records] at present
      have waits := clocked.waits _ _ present queued
      have fresh := mt waits.expired_iff.mpr (Nat.not_lt.mpr timely)
      rcases waits.origin with ⟨front, request, historyEq, created, asked, directoryEq⟩
      refine ⟨front, request, _, historyEq, asked, created,
        fun _ => not_creates_of_mem_sinceCreated, iff_of_false nofun fresh, ?_⟩
      rintro job ⟨⟩
      apply directoryEq
      apply Nat.eq_zero_of_not_pos
      rw [List.countP_pos_iff]
      exact fun invalid => fresh (.inl invalid)

/-- In a run of fewer calls than a word counts, records expire exactly when they should, whatever
the cache was set up with. -/
theorem expiresExactly_after (config : Config) (directory : Path) (calls : List CacheCall)
    (short : calls.length < UInt32.size) : (new config directory).ExpiresExactly
      (min config.expirationThreshold.toNat (UInt32.size - 1)) calls := by
  have clocked := clocked_after config directory calls short
  refine ⟨?_, ?_, clocked.stamps, clocked.loadsStarted⟩
  · intro earlier dequeued goesOn taken
    have shorter := goesOn.length_le
    rw [List.length_append, List.length_singleton] at shorter
    rcases tidy_after config directory earlier with ⟨view, tidy⟩
    rw [← threshold_after config directory earlier]
    exact (clocked_after config directory earlier (by omega)).dequeues tidy taken
  · intro earlier call goesOn
    have shorter := goesOn.length_le
    rw [List.length_append, List.length_singleton] at shorter
    exact (clocked_after config directory earlier (by omega)).unsaturated_after (by omega)

def hastyConfig : Config :=
  ⟨⟨[0x2f]⟩, ⟨64, 64⟩, 4, 1, 0⟩

/-- The first page has to let two others pass, although it is asked for again before the last of
them. Another page waits while the directory is changed and changed back, and a third one is asked
for in between. -/
def turningCalls : List CacheCall :=
  [.request (letterPage 0x61) (.constant .crashed) 0,
    .request (letterPage 0x62) (.constant .crashed) 1, .nextJob,
    .request (letterPage 0x61) (.constant .crashed) 2,
    .request (letterPage 0x63) (.constant .crashed) 3, .nextJob, .nextJob,
    .request (letterPage 0x64) (.constant .crashed) 4, .changeDirectory ⟨[0x2f, 0x78]⟩,
    .request (letterPage 0x65) (.constant .crashed) 5, .nextJob, .changeDirectory ⟨[0x2f]⟩,
    .nextJob]

theorem expiresExactly_turningCalls :
    turningCalls.length < UInt32.size ∧
      (new hastyConfig ⟨[0x2f]⟩).ExpiresExactly
        (min hastyConfig.expirationThreshold.toNat (UInt32.size - 1)) turningCalls ∧
      ((new hastyConfig ⟨[0x2f]⟩).history turningCalls).filterMap
          (fun event => event.answer.taken?.map fun id => (id.slot, event.startsLoad)) =
        [(1, true), (2, true), (0, false), (4, true), (3, false)] :=
  ⟨by decide, expiresExactly_after hastyConfig ⟨[0x2f]⟩ turningCalls (by decide), by decide⟩

end CacheState

end Thumbnails
