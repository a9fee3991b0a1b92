import Thumbnails.Proofs.Cache.Effect

/-!
# The life of a record

A call concerns one record, and another one if that has to make room. `RecordChange` lists what can
become of the record of a name in one call. What is said there about the call and its answer is
exact: a record that was taken or whose load was settled has changed.
-/

namespace Thumbnails

/-- The record that an answer hands to the loader. -/
def CacheAnswer.taken? : CacheAnswer → Option RecordId
  | .taken dequeued => dequeued.map Dequeued.id
  | _ => none

/-- The record whose load a call ends. -/
def CacheCall.settled? : CacheCall → CacheAnswer → Option RecordId
  | .complete result, .completed (some _) => some result.id
  | _, _ => none

/-- What becomes of the record of a name in one call. -/
inductive RecordChange (state : CacheState) (id : RecordId) :
    CacheCall → CacheAnswer → Option Record → Option Record → Prop where
  | kept {call : CacheCall} {answer : CacheAnswer} {record : Option Record}
      (untaken : answer.taken? ≠ some id) (unsettled : call.settled? answer ≠ some id) :
      RecordChange state id call answer record record
  | created {key : ThumbnailKey} {generator : Generator} {subscriber : SubscriberId}
      {wake : Wake} :
      RecordChange state id (.request key generator subscriber) (.status .queued wake) none
        (some (.created key generator state.clock subscriber))
  | joined {record : Record} {generator : Generator} {subscriber : SubscriberId} {wake : Wake}
      (waiting : record.status.isFinished = false) :
      RecordChange state id (.request record.key generator subscriber) (.status .queued wake)
        (some record) (some (record.joined subscriber))
  | taken {record : Record} {dequeued : Dequeued} (queued : record.status = .queued)
      (own : dequeued.id = id) :
      RecordChange state id .nextJob (.taken (some dequeued)) (some record) (some record.taken)
  | landed {record : Record} {pixmap : Image} (inProgress : record.status = .inProgress) :
      RecordChange state id (.complete ⟨id, .loaded, some pixmap⟩)
        (.completed (some ⟨record.subscribers, ⟨.loaded, some pixmap⟩⟩)) (some record)
        (some (record.landed pixmap))
  | failed {record : Record} {status : LoadStatus} {pixmap : Option Image}
      (inProgress : record.status = .inProgress)
      (failed : status = .loadFailed ∨ status = .loaded ∧ pixmap = none) :
      RecordChange state id (.complete ⟨id, status, pixmap⟩)
        (.completed (some ⟨record.subscribers, ⟨.loadFailed, pixmap⟩⟩)) (some record)
        (some (record.failed pixmap))
  | expired {record : Record} {pixmap : Option Image}
      (inProgress : record.status = .inProgress) :
      RecordChange state id (.complete ⟨id, .requestExpired, pixmap⟩)
        (.completed (some ⟨record.subscribers, ⟨.requestExpired, none⟩⟩)) (some record) none
  | evicted {record : Record} (loaded : record.status = .loaded) :
      RecordChange state id .evictExcess .nothing (some record) none
  | displaced {record : Record} {other : RecordId} {pixmap : Image} {completion : Completion}
      (loaded : record.status = .loaded) (different : other ≠ id) :
      RecordChange state id (.complete ⟨other, .loaded, some pixmap⟩)
        (.completed (some completion)) (some record) none
  | forgotten {record : Record} (finished : record.status.isFinished = true) :
      RecordChange state id (.forgetFinished record.key) (.flag true) (some record) none

theorem RecordStatus.ne_of_isFinished {status other : RecordStatus}
    (finished : status.isFinished = true) (unfinished : other.isFinished = false) :
    status ≠ other := by
  rintro rfl
  cases finished.symm.trans unfinished

theorem RecordChange.untouched {state : CacheState} {id : RecordId} {call : CacheCall}
    {answer : CacheAnswer} (taken : answer.taken? = none) (settled : call.settled? answer = none)
    (record : Option Record) : RecordChange state id call answer record record := by
  apply RecordChange.kept
  · simp [taken]
  · simp [settled]

/-- The loader takes one record only. -/
theorem RecordChange.other_taken {state : CacheState} {id : RecordId} {dequeued : Dequeued}
    (different : id ≠ dequeued.id) (record : Option Record) :
    RecordChange state id .nextJob (.taken (some dequeued)) record record := by
  apply RecordChange.kept
  · simpa [CacheAnswer.taken?] using Ne.symm different
  · simp [CacheCall.settled?]

/-- A result settles the load of one record only. -/
theorem RecordChange.other_settled {state : CacheState} {id : RecordId} {result : LoadResult}
    {completion : Completion} (different : id ≠ result.id) (record : Option Record) :
    RecordChange state id (.complete result) (.completed (some completion)) record record := by
  apply RecordChange.kept
  · simp [CacheAnswer.taken?]
  · simpa [CacheCall.settled?] using Ne.symm different

namespace RecordChange

variable {state : CacheState} {id : RecordId} {call : CacheCall} {answer : CacheAnswer}
  {old new : Option Record}

/-- A record never changes its key. -/
theorem key_eq (change : RecordChange state id call answer old new) {before after : Record}
    (oldEq : old = some before) (newEq : new = some after) : after.key = before.key := by
  cases change <;> cases oldEq <;> cases newEq <;> rfl

/-- Records are in progress from when they are taken until their load is settled. -/
theorem inProgress_iff (change : RecordChange state id call answer old new) :
    new.map Record.status = some .inProgress ↔ answer.taken? = some id ∨
      old.map Record.status = some .inProgress ∧ call.settled? answer ≠ some id := by
  cases change with
  | kept untaken unsettled => simp [untaken, unsettled]
  | created => simp [Record.created, Record.queued, CacheAnswer.taken?]
  | joined waiting => simp [Record.joined, CacheAnswer.taken?, CacheCall.settled?]
  | taken queued own => simp [Record.taken, CacheAnswer.taken?, own]
  | landed inProgress => simp [Record.landed, CacheAnswer.taken?, CacheCall.settled?]
  | failed inProgress failed => simp [Record.failed, CacheAnswer.taken?, CacheCall.settled?]
  | expired inProgress => simp [CacheAnswer.taken?, CacheCall.settled?]
  | evicted loaded => simp [loaded, CacheAnswer.taken?]
  | displaced loaded different => simp [loaded, CacheAnswer.taken?]
  | forgotten finished =>
      rename_i record
      have ended : record.status ≠ .inProgress := RecordStatus.ne_of_isFinished finished rfl
      simp [ended, CacheAnswer.taken?]

/-- Records are queued from when they are made until they are taken. -/
theorem queued_balance (change : RecordChange state id call answer old new) :
    (if new.map Record.status = some .queued then 1 else 0) +
        (if answer.taken? = some id then 1 else 0) =
      (if old.map Record.status = some .queued then 1 else 0) +
        if old = none ∧ new.isSome then 1 else 0 := by
  cases change with
  | kept untaken unsettled => cases old <;> simp [untaken]
  | created => simp [Record.created, Record.queued, CacheAnswer.taken?]
  | joined waiting => simp [Record.joined, CacheAnswer.taken?]
  | taken queued own => simp [Record.taken, CacheAnswer.taken?, queued, own]
  | landed inProgress => simp [Record.landed, CacheAnswer.taken?, inProgress]
  | failed inProgress failed => simp [Record.failed, CacheAnswer.taken?, inProgress]
  | expired inProgress => simp [CacheAnswer.taken?, inProgress]
  | evicted loaded => simp [CacheAnswer.taken?, loaded]
  | displaced loaded different => simp [CacheAnswer.taken?, loaded]
  | forgotten finished =>
      rename_i record
      have ended : record.status ≠ .queued := RecordStatus.ne_of_isFinished finished rfl
      simp [CacheAnswer.taken?, ended]

theorem queued_of_taken (change : RecordChange state id call answer old new)
    (taken : answer.taken? = some id) : old.map Record.status = some .queued := by
  cases change with
  | kept untaken unsettled => exact absurd taken untaken
  | taken queued own => simp [queued]
  | _ => cases taken

/-- Records are made by requests only. -/
theorem created_by_request (change : RecordChange state id call answer old new)
    (absent : old = none) (present : new.isSome) :
    ∃ key generator subscriber, call = .request key generator subscriber := by
  cases change with
  | created => exact ⟨_, _, _, rfl⟩
  | kept untaken unsettled =>
      rw [absent] at present
      cases present
  | _ => cases absent

end RecordChange

namespace StoreView

variable {view next : StoreView} {id other : RecordId} {record : Record}

theorem records_join (view : StoreView) (id other : RecordId) (record : Record)
    (subscriber : SubscriberId) : (view.join id record subscriber).records other =
      if other = id then some (record.joined subscriber) else view.records other :=
  records_put view id other _

theorem records_take (view : StoreView) (id other : RecordId) (record : Record) :
    (view.take id record).records other =
      if other = id then some record.taken else view.records other :=
  records_put view id other _

theorem records_land (view : StoreView) (id other : RecordId) (record : Record) (pixmap : Image) :
    (view.land id record pixmap).records other =
      if other = id then some (record.landed pixmap) else view.records other :=
  records_put view id other _

theorem records_fail (view : StoreView) (id other : RecordId) (record : Record)
    (pixmap : Option Image) : (view.fail id record pixmap).records other =
      if other = id then some (record.failed pixmap) else view.records other :=
  records_put view id other _

theorem records_insert (view : StoreView) (id other : RecordId) (record : Record) :
    (view.insert id record).records other =
      if other = id then some record else view.records other :=
  records_put view id other _

theorem records_remove (view : StoreView) (id other : RecordId) :
    (view.remove id).records other = if other = id then none else view.records other := by
  split
  · rename_i same
    rw [same]
    cases present : view.records id with
    | none => simp [remove, present]
    | some record => simp [remove_eq present]
  · rename_i different
    exact records_remove_of_ne different

/-- A record stays when room is made, or it was loaded and goes. -/
theorem records_makeRoom_cases (orderly : view.Orderly) (capacity : Nat) (other : RecordId) :
    (view.makeRoom capacity).records other = view.records other ∨
      ∃ record, view.records other = some record ∧ record.status = .loaded ∧
        (view.makeRoom capacity).records other = none := by
  rcases view.makeRoom_cases capacity with unchanged | ⟨victim, rest, settledEq, removed⟩
  · exact .inl (by rw [unchanged])
  · rw [removed, records_remove]
    split
    · rename_i same
      have victimLoaded := orderly.settled_loaded victim (by simp [settledEq])
      rcases Option.map_eq_some_iff.mp victimLoaded with ⟨record, present, loaded⟩
      exact .inr ⟨record, by rw [same, present], loaded, rfl⟩
    · exact .inl rfl

theorem Answers.records_eq {status : Option RequestStatus} {key : ThumbnailKey}
    (answers : view.Answers key status next) : next.records = view.records := by
  cases answers with
  | hit => rfl
  | failed => rfl
  | waiting => rfl
  | absent => rfl

end StoreView

namespace CacheState

variable {state after : CacheState} {view next : StoreView} {call : CacheCall}
  {answer : CacheAnswer} {id : RecordId}

/-- Whatever a call does, it does to the record of a name what is listed. -/
theorem Effect.change (effect : state.Effect view call answer after next)
    (wellFormed : view.WellFormed) (orderly : view.Orderly) (other : RecordId) :
    RecordChange state other call answer (view.records other) (next.records other) := by
  cases effect with
  | requestAnswered running answers =>
      rw [answers.records_eq]
      exact .untouched rfl rfl _
  | lookup answers =>
      rw [answers.records_eq]
      exact .untouched rfl rfl _
  | peekAnswered running answers =>
      rw [answers.records_eq]
      exact .untouched rfl rfl _
  | requestJoined running named present waiting =>
      rw [StoreView.records_join]
      have keyEq := wellFormed.key_eq named present
      split
      · rename_i same
        rw [same, present, ← keyEq]
        exact .joined waiting
      · exact .untouched rfl rfl _
  | requestCreated running unnamed fresh =>
      rename_i id _
      rw [StoreView.records_insert]
      by_cases same : other = id
      · rw [if_pos same, same, fresh]
        exact .created
      · rw [if_neg same]
        exact .untouched rfl rfl _
  | jobExpired first present queued stale =>
      rw [StoreView.records_take]
      split
      · rename_i same
        rw [same, present]
        exact .taken queued rfl
      · rename_i different
        exact .other_taken different _
  | jobStarted first present queued timely =>
      rw [StoreView.records_take]
      split
      · rename_i same
        rw [same, present]
        exact .taken queued rfl
      · rename_i different
        exact .other_taken different _
  | resultDropped dropped => exact .untouched rfl rfl _
  | resultLanded running present inProgress =>
      rw [StoreView.records_land]
      split
      · rename_i same
        rw [same, present]
        exact .landed inProgress
      · rename_i different
        rcases StoreView.records_makeRoom_cases orderly state.capacity other with
          kept | ⟨victim, victimPresent, loaded, gone⟩
        · rw [kept]
          exact .other_settled different _
        · rw [gone, victimPresent]
          exact .displaced loaded (Ne.symm different)
  | resultExpired running present inProgress =>
      rw [StoreView.records_remove]
      split
      · rename_i same
        rw [same, present]
        exact .expired inProgress
      · rename_i different
        exact .other_settled different _
  | resultFailed running present inProgress failed =>
      rw [StoreView.records_fail]
      split
      · rename_i same
        rw [same, present]
        exact .failed inProgress failed
      · rename_i different
        exact .other_settled different _
  | evictExcess =>
      rcases StoreView.records_makeRoom_cases orderly state.capacity other with
        kept | ⟨victim, victimPresent, loaded, gone⟩
      · rw [kept]
        exact .untouched rfl rfl _
      · rw [gone, victimPresent]
        exact .evicted loaded
  | forgotten named present finished =>
      rw [StoreView.records_remove]
      have keyEq := wellFormed.key_eq named present
      split
      · rename_i same
        rw [same, present, ← keyEq]
        exact .forgotten finished
      · exact .untouched rfl rfl _
  | _ => exact .untouched rfl rfl _

theorem Effect.inProgress_iff (effect : state.Effect view call answer after next)
    (wellFormed : view.WellFormed) (orderly : view.Orderly) (id : RecordId) :
    next.statusOf? id = some .inProgress ↔ answer.taken? = some id ∨
      view.statusOf? id = some .inProgress ∧ call.settled? answer ≠ some id :=
  (effect.change wellFormed orderly id).inProgress_iff

theorem Effect.queued_balance (effect : state.Effect view call answer after next)
    (wellFormed : view.WellFormed) (orderly : view.Orderly) (id : RecordId) :
    (if next.statusOf? id = some .queued then 1 else 0) +
        (if answer.taken? = some id then 1 else 0) =
      (if view.statusOf? id = some .queued then 1 else 0) +
        if view.records id = none ∧ (next.records id).isSome then 1 else 0 :=
  (effect.change wellFormed orderly id).queued_balance

theorem Effect.queued_of_taken (effect : state.Effect view call answer after next)
    (wellFormed : view.WellFormed) (orderly : view.Orderly) (taken : answer.taken? = some id) :
    view.statusOf? id = some .queued :=
  (effect.change wellFormed orderly id).queued_of_taken taken

end CacheState

end Thumbnails
