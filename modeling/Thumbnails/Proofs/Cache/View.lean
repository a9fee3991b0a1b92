import Thumbnails.Proofs.Store.View

/-!
# What a cache does to a view

A call to a cache makes several operations of the store in a row, and between them the orders may be
out of step with the statuses. Here each such row is one change of the view, with the record that it
concerns at hand. `StoreView.Orderly` says what the cache promises about the view between two calls,
and every change keeps it.
-/

namespace Thumbnails

namespace Record

/-- What a status says about the rest of a record. -/
structure Proper (record : Record) : Prop where
  loaded_pixmap : record.status = .loaded → record.pixmap.isSome
  waiting_pixmap : record.status.isFinished = false → record.pixmap = none
  waiting_subscribers : record.status.isFinished = false → record.subscribers ≠ []
  finished_subscribers : record.status.isFinished = true → record.subscribers = []

def created (key : ThumbnailKey) (generator : Generator) (createdAt : Nat)
    (subscriber : SubscriberId) : Record :=
  { queued key generator createdAt with subscribers := [subscriber] }

def joined (record : Record) (subscriber : SubscriberId) : Record :=
  { record with subscribers := record.subscribers ++ [subscriber] }

def taken (record : Record) : Record :=
  { record with status := .inProgress }

def landed (record : Record) (pixmap : Image) : Record :=
  { record with status := .loaded, pixmap := some pixmap, subscribers := [] }

def failed (record : Record) (pixmap : Option Image) : Record :=
  { record with status := .loadFailed, pixmap, subscribers := [] }

variable {record : Record}

theorem proper_created (key : ThumbnailKey) (generator : Generator) (createdAt : Nat)
    (subscriber : SubscriberId) : (created key generator createdAt subscriber).Proper := by
  constructor <;> simp [created, queued, RecordStatus.isFinished]

theorem Proper.joined (proper : record.Proper) (waiting : record.status.isFinished = false)
    (subscriber : SubscriberId) : (record.joined subscriber).Proper := by
  refine ⟨proper.loaded_pixmap, proper.waiting_pixmap, ?_, ?_⟩
  · intro _
    simp [Record.joined]
  · intro finished
    rw [Record.joined, waiting] at finished
    cases finished

theorem Proper.taken (proper : record.Proper) (queued : record.status = .queued) :
    record.taken.Proper := by
  have waiting : record.status.isFinished = false := by rw [queued]; rfl
  refine ⟨nofun, ?_, ?_, nofun⟩
  · intro _
    exact proper.waiting_pixmap waiting
  · intro _
    exact proper.waiting_subscribers waiting

theorem proper_landed (record : Record) (pixmap : Image) : (record.landed pixmap).Proper := by
  constructor <;> simp [landed, RecordStatus.isFinished]

theorem proper_failed (record : Record) (pixmap : Option Image) :
    (record.failed pixmap).Proper := by
  constructor <;> simp [failed, RecordStatus.isFinished]

end Record

namespace StoreView

/-- A subscriber joins a record. One that is queued comes first. -/
def join (view : StoreView) (id : RecordId) (record : Record) (subscriber : SubscriberId) :
    StoreView :=
  { view.put id (record.joined subscriber) with
    load := if record.status = .queued then id :: view.load.erase id else view.load }

def take (view : StoreView) (id : RecordId) (record : Record) : StoreView :=
  { view.put id record.taken with load := view.load.erase id ++ [id] }

/-- A load gives a thumbnail, which becomes the one used most recently. -/
def land (view : StoreView) (id : RecordId) (record : Record) (pixmap : Image) : StoreView :=
  { view.put id (record.landed pixmap) with
    load := view.load.erase id ++ [id]
    settled := view.settled ++ [id]
    pending := view.pending.erase id }

/-- A load comes to its end without a thumbnail that counts. -/
def fail (view : StoreView) (id : RecordId) (record : Record) (pixmap : Option Image) : StoreView :=
  { view.put id (record.failed pixmap) with load := view.load.erase id ++ [id] }

/-- A loaded record becomes the one used most recently. -/
def refresh (view : StoreView) (id : RecordId) : StoreView :=
  { view with settled := view.settled.erase id ++ [id] }

/-- Without room for one more, the record used least recently goes. -/
def makeRoom (view : StoreView) (capacity : Nat) : StoreView :=
  if view.settled.length < capacity then view
  else
    match view.settled with
    | [] => view
    | victim :: _ => view.remove victim

structure Orderly (view : StoreView) : Prop where
  queued_first : view.load.Pairwise fun id other =>
    view.statusOf? other = some .queued → view.statusOf? id = some .queued
  settled_loaded : ∀ id ∈ view.settled, view.statusOf? id = some .loaded
  pending_unloaded : ∀ id ∈ view.pending, view.statusOf? id ≠ some .loaded
  proper : ∀ id record, view.records id = some record → record.Proper

variable {view : StoreView} {id other : RecordId} {record new : Record} {capacity : Nat}

theorem proper_put (proper : ∀ id record, view.records id = some record → record.Proper)
    (newProper : new.Proper) (other : RecordId) (found : Record)
    (present : (view.put id new).records other = some found) : found.Proper := by
  rw [records_put] at present
  split at present
  · cases present
    exact newProper
  · exact proper other found present

/-- Records that are put back with the status they had leave every status as it was. -/
theorem statusOf?_put_same (present : view.records id = some record)
    (statusEq : new.status = record.status) (other : RecordId) :
    (view.put id new).statusOf? other = view.statusOf? other := by
  rw [statusOf?_put]
  split
  · rename_i same
    rw [same, statusOf?_eq present, statusEq]
  · rfl

theorem take_eq (present : view.records id = some record) :
    (view.setStatus id .inProgress).moveToLoadBack id = view.take id record := by
  simp [setStatus, update, put, moveToLoadBack, present, take, Record.taken]

theorem land_eq (present : view.records id = some record) (notSettled : id ∉ view.settled)
    (pixmap : Image) :
    ((((view.setStatus id .loaded).moveToLoadedTail id).moveToLoadBack id).update id
      fun record => { record with pixmap := some pixmap, subscribers := [] }) =
        view.land id record pixmap := by
  simp [setStatus, update, put, moveToLoadedTail, moveToLoadBack, present, land, Record.landed,
    List.erase_of_not_mem notSettled]

theorem fail_eq (present : view.records id = some record) (pixmap : Option Image) :
    (((view.setStatus id .loadFailed).moveToLoadBack id).update id
      fun record => { record with pixmap, subscribers := [] }) = view.fail id record pixmap := by
  simp [setStatus, update, put, moveToLoadBack, present, fail, Record.failed]

theorem records_remove_of_ne (different : other ≠ id) :
    (view.remove id).records other = view.records other := by
  cases present : view.records id with
  | none => simp [remove, present]
  | some record => simp [remove_eq present, Function.update_of_ne different]

theorem statusOf?_remove_of_ne (different : other ≠ id) :
    (view.remove id).statusOf? other = view.statusOf? other := by
  rw [statusOf?, statusOf?, records_remove_of_ne different]

/-- Making room takes away the record used least recently, or nothing. -/
theorem makeRoom_cases (view : StoreView) (capacity : Nat) : view.makeRoom capacity = view ∨
    ∃ victim rest, view.settled = victim :: rest ∧
      view.makeRoom capacity = view.remove victim := by
  simp only [makeRoom]
  split
  · exact .inl rfl
  · cases settledEq : view.settled with
    | nil => exact .inl rfl
    | cons victim rest => exact .inr ⟨victim, rest, rfl, rfl⟩

theorem WellFormed.makeRoom (wellFormed : view.WellFormed) (capacity : Nat) :
    (view.makeRoom capacity).WellFormed := by
  rcases view.makeRoom_cases capacity with unchanged | ⟨victim, rest, _, removed⟩
  · rwa [unchanged]
  · rw [removed]
    exact wellFormed.remove victim

namespace Orderly

theorem empty : StoreView.empty.Orderly := by
  refine ⟨List.Pairwise.nil, ?_, ?_, ?_⟩ <;> simp [StoreView.empty]

theorem mem_settled (wellFormed : view.WellFormed) (orderly : view.Orderly)
    (present : view.records id = some record) (loaded : record.status = .loaded) :
    id ∈ view.settled := by
  rcases List.mem_append.mp (wellFormed.recency_mem present) with settled | pending
  · exact settled
  · exact absurd (by rw [statusOf?_eq present, loaded]) (orderly.pending_unloaded id pending)

theorem not_mem_settled (orderly : view.Orderly) (present : view.records id = some record)
    (unloaded : record.status ≠ .loaded) : id ∉ view.settled := by
  intro settled
  have loaded := orderly.settled_loaded id settled
  rw [statusOf?_eq present, Option.some.injEq] at loaded
  exact unloaded loaded

/-- The part before the boundary holds as many records as are loaded. -/
theorem count_loaded (wellFormed : view.WellFormed) (orderly : view.Orderly) :
    view.count .loaded = view.settled.length := by
  have perm : view.load.Perm view.recency := by
    apply (List.perm_ext_iff_of_nodup wellFormed.load_nodup wellFormed.recency_nodup).mpr
    intro id
    rw [wellFormed.mem_load, wellFormed.mem_recency]
  have settled : view.countAmong view.settled .loaded = view.settled.length := by
    apply List.countP_eq_length.mpr
    intro id idMem
    simpa using orderly.settled_loaded id idMem
  have pending : view.countAmong view.pending .loaded = 0 := by
    apply List.countP_eq_zero.mpr
    intro id idMem
    simpa using orderly.pending_unloaded id idMem
  calc view.count .loaded
      = view.countAmong view.recency .loaded := perm.countP_eq _
    _ = view.countAmong view.settled .loaded + view.countAmong view.pending .loaded :=
        List.countP_append
    _ = view.settled.length := by rw [settled, pending, Nat.add_zero]

theorem insert (wellFormed : view.WellFormed) (orderly : view.Orderly)
    (fresh : view.records id = none) (queued : record.status = .queued)
    (proper : record.Proper) : (view.insert id record).Orderly := by
  have statuses : ∀ other, (view.insert id record).statusOf? other =
      if other = id then some .queued else view.statusOf? other := by
    intro other
    rw [← queued]
    exact statusOf?_put view id other record
  have different : ∀ {other found}, view.records other = some found → other ≠ id := by
    rintro other found present rfl
    rw [fresh] at present
    cases present
  have kept : ∀ other ∈ view.recency, (view.insert id record).statusOf? other =
      view.statusOf? other := by
    intro other otherMem
    rcases wellFormed.record_of_recency_mem otherMem with ⟨found, present⟩
    rw [statuses, if_neg (different present)]
  refine ⟨List.pairwise_cons.mpr ⟨?_, ?_⟩, ?_, ?_, proper_put orderly.proper proper⟩
  · intro other _ _
    rw [statuses, if_pos rfl]
  · apply orderly.queued_first.imp_of_mem
    intro first second firstMem secondMem ordered
    rcases wellFormed.record_of_load_mem firstMem with ⟨_, firstPresent⟩
    rcases wellFormed.record_of_load_mem secondMem with ⟨_, secondPresent⟩
    rwa [statuses, statuses, if_neg (different firstPresent), if_neg (different secondPresent)]
  · intro other otherMem
    rw [kept other (List.mem_append_left _ otherMem)]
    exact orderly.settled_loaded other otherMem
  · intro other otherMem
    rcases List.mem_append.mp otherMem with old | new
    · rw [kept other (List.mem_append_right _ old)]
      exact orderly.pending_unloaded other old
    · rw [statuses, if_pos (List.mem_singleton.mp new)]
      simp

theorem join (orderly : view.Orderly) (present : view.records id = some record)
    (waiting : record.status.isFinished = false) (subscriber : SubscriberId) :
    (view.join id record subscriber).Orderly := by
  have statuses : ∀ other, (view.join id record subscriber).statusOf? other =
      view.statusOf? other := by
    intro other
    have statusEq : (record.joined subscriber).status = record.status := rfl
    exact statusOf?_put_same present statusEq other
  refine ⟨?_, ?_, ?_, proper_put orderly.proper
    ((orderly.proper id record present).joined waiting subscriber)⟩
  · simp only [statuses]
    change (if record.status = .queued then id :: view.load.erase id else view.load).Pairwise _
    split
    · rename_i queued
      apply List.pairwise_cons.mpr
      refine ⟨?_, orderly.queued_first.sublist List.erase_sublist⟩
      intro other _ _
      rw [statusOf?_eq present, queued]
    · exact orderly.queued_first
  · simp only [statuses]
    exact orderly.settled_loaded
  · simp only [statuses]
    exact orderly.pending_unloaded

/-- A record that is not queued may go to the back of the load order. -/
theorem queued_first_back (wellFormed : view.WellFormed) (orderly : view.Orderly)
    (unqueued : new.status ≠ .queued) :
    (view.load.erase id ++ [id]).Pairwise fun first second =>
      (view.put id new).statusOf? second = some .queued →
        (view.put id new).statusOf? first = some .queued := by
  apply List.pairwise_append.mpr
  refine ⟨?_, List.pairwise_singleton _ _, ?_⟩
  · apply (orderly.queued_first.sublist List.erase_sublist).imp_of_mem
    intro first second firstMem secondMem ordered
    rw [statusOf?_put, statusOf?_put, if_neg (wellFormed.load_nodup.mem_erase_iff.mp firstMem).1,
      if_neg (wellFormed.load_nodup.mem_erase_iff.mp secondMem).1]
    exact ordered
  · intro first _ second secondMem queued
    rw [List.mem_singleton.mp secondMem, statusOf?_put, if_pos rfl, Option.some.injEq] at queued
    exact absurd queued unqueued

/-- A record that stays behind the boundary may change its status, unless it is loaded then. -/
theorem put_back (wellFormed : view.WellFormed) (orderly : view.Orderly)
    (present : view.records id = some record) (unloaded : record.status ≠ .loaded)
    (unqueued : new.status ≠ .queued) (newUnloaded : new.status ≠ .loaded) (proper : new.Proper) :
    Orderly { view.put id new with load := view.load.erase id ++ [id] } := by
  refine ⟨queued_first_back wellFormed orderly unqueued, ?_, ?_, proper_put orderly.proper proper⟩
  · intro other otherMem
    change (view.put id new).statusOf? other = _
    have different : other ≠ id := by
      rintro rfl
      exact orderly.not_mem_settled present unloaded otherMem
    rw [statusOf?_put, if_neg different]
    exact orderly.settled_loaded other otherMem
  · intro other otherMem
    change (view.put id new).statusOf? other ≠ _
    rw [statusOf?_put]
    split
    · simpa using newUnloaded
    · exact orderly.pending_unloaded other otherMem

theorem take (wellFormed : view.WellFormed) (orderly : view.Orderly)
    (present : view.records id = some record) (queued : record.status = .queued) :
    (view.take id record).Orderly := by
  apply put_back wellFormed orderly present (by simp [queued])
  · exact nofun
  · exact nofun
  · exact (orderly.proper id record present).taken queued

theorem fail (wellFormed : view.WellFormed) (orderly : view.Orderly)
    (present : view.records id = some record) (unloaded : record.status ≠ .loaded)
    (pixmap : Option Image) : (view.fail id record pixmap).Orderly := by
  apply put_back wellFormed orderly present unloaded
  · exact nofun
  · exact nofun
  · exact record.proper_failed pixmap

theorem land (wellFormed : view.WellFormed) (orderly : view.Orderly) (record : Record)
    (pixmap : Image) : (view.land id record pixmap).Orderly := by
  have statuses : ∀ other, (view.land id record pixmap).statusOf? other =
      if other = id then some .loaded else view.statusOf? other := by
    intro other
    exact statusOf?_put view id other (record.landed pixmap)
  refine ⟨?_, ?_, ?_, proper_put orderly.proper (record.proper_landed pixmap)⟩
  · apply queued_first_back wellFormed orderly
    exact nofun
  · intro other otherMem
    rw [statuses]
    split
    · rfl
    · rename_i different
      rcases List.mem_append.mp otherMem with old | new
      · exact orderly.settled_loaded other old
      · exact absurd (List.mem_singleton.mp new) different
  · intro other otherMem
    have erased := wellFormed.pending_nodup.mem_erase_iff.mp otherMem
    rw [statuses, if_neg erased.1]
    exact orderly.pending_unloaded other erased.2

theorem refresh (orderly : view.Orderly) (present : view.records id = some record)
    (loaded : record.status = .loaded) : (view.refresh id).Orderly := by
  refine ⟨orderly.queued_first, ?_, orderly.pending_unloaded, orderly.proper⟩
  intro other otherMem
  rcases List.mem_append.mp otherMem with old | new
  · exact orderly.settled_loaded other (List.mem_of_mem_erase old)
  · rw [List.mem_singleton.mp new]
    change view.statusOf? id = _
    rw [statusOf?_eq present, loaded]

theorem remove (wellFormed : view.WellFormed) (orderly : view.Orderly) (id : RecordId) :
    (view.remove id).Orderly := by
  cases present : view.records id with
  | none => simpa [StoreView.remove, present] using orderly
  | some record =>
      have statuses : ∀ other, other ≠ id →
          (view.remove id).statusOf? other = view.statusOf? other := by
        intro other different
        exact statusOf?_remove_of_ne different
      rw [remove_eq present] at statuses ⊢
      refine ⟨?_, ?_, ?_, ?_⟩
      · apply (orderly.queued_first.sublist List.erase_sublist).imp_of_mem
        intro first second firstMem secondMem ordered
        rw [statuses first (wellFormed.load_nodup.mem_erase_iff.mp firstMem).1,
          statuses second (wellFormed.load_nodup.mem_erase_iff.mp secondMem).1]
        exact ordered
      · intro other otherMem
        have erased := wellFormed.settled_nodup.mem_erase_iff.mp otherMem
        rw [statuses other erased.1]
        exact orderly.settled_loaded other erased.2
      · intro other otherMem
        have erased := wellFormed.pending_nodup.mem_erase_iff.mp otherMem
        rw [statuses other erased.1]
        exact orderly.pending_unloaded other erased.2
      · intro other found foundEq
        change Function.update view.records id none other = some found at foundEq
        rw [Function.update_apply] at foundEq
        split at foundEq
        · cases foundEq
        · exact orderly.proper other found foundEq

theorem makeRoom (wellFormed : view.WellFormed) (orderly : view.Orderly) (capacity : Nat) :
    (view.makeRoom capacity).Orderly := by
  rcases view.makeRoom_cases capacity with unchanged | ⟨victim, rest, _, removed⟩
  · rwa [unchanged]
  · rw [removed]
    exact orderly.remove wellFormed victim

/-- Only loaded records make room. -/
theorem records_makeRoom (orderly : view.Orderly) (present : view.records id = some record)
    (unloaded : record.status ≠ .loaded) (capacity : Nat) :
    (view.makeRoom capacity).records id = some record := by
  rcases view.makeRoom_cases capacity with unchanged | ⟨victim, rest, settledEq, removed⟩
  · rwa [unchanged]
  · have different : id ≠ victim := by
      rintro rfl
      exact orderly.not_mem_settled present unloaded (by simp [settledEq])
    rwa [removed, records_remove_of_ne different]

end Orderly

theorem settled_length_remove_le (view : StoreView) (id : RecordId) :
    (view.remove id).settled.length ≤ view.settled.length := by
  simp only [remove]
  split
  · exact Nat.le_refl _
  · exact List.length_erase_le

theorem settled_length_refresh (settled : id ∈ view.settled) :
    (view.refresh id).settled.length = view.settled.length := by
  have erased := List.length_erase_of_mem settled
  have positive := List.length_pos_of_mem settled
  simp only [refresh, List.length_append, List.length_singleton]
  omega

theorem WellFormed.record_of_settled_mem (wellFormed : view.WellFormed)
    (settled : id ∈ view.settled) : ∃ record, view.records id = some record :=
  wellFormed.record_of_recency_mem (List.mem_append_left _ settled)

theorem settled_length_makeRoom_lt (wellFormed : view.WellFormed) (positive : 0 < capacity)
    (fits : view.settled.length ≤ capacity) :
    (view.makeRoom capacity).settled.length < capacity := by
  simp only [makeRoom]
  split
  · assumption
  · cases settledEq : view.settled with
    | nil => simpa [settledEq] using positive
    | cons victim rest =>
        have victimMem : victim ∈ view.settled := by simp [settledEq]
        rcases wellFormed.record_of_settled_mem victimMem with ⟨record, present⟩
        have shorter := List.length_erase_of_mem victimMem
        have nonempty := List.length_pos_of_mem victimMem
        simp only [remove_eq present]
        omega

end StoreView

end Thumbnails
