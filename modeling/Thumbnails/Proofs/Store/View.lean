import Mathlib.Data.List.Count
import Mathlib.Data.List.Nodup
import Mathlib.Logic.Function.Basic
import Thumbnails.Store.Basic

/-!
# A store as lists and maps

What a store holds can be said without slots and links: the load order and the recency order are
lists of names, the recency order is cut in two at the boundary, and records and names are found
through finite maps. Each operation of the store has a counterpart here, and it is on this side
that its meaning can be read off.

A name that finds no record changes nothing. The counters are not kept but counted.
-/

namespace Thumbnails

/-- The orders of a store and what its names and keys stand for. -/
structure StoreView where
  load : List RecordId
  /-- The recency order before the boundary. -/
  settled : List RecordId
  /-- The recency order from the boundary on. -/
  pending : List RecordId
  records : RecordId → Option Record
  names : ThumbnailKey → Option RecordId

namespace StoreView

def empty : StoreView :=
  { load := [], settled := [], pending := [], records := fun _ => none, names := fun _ => none }

def recency (view : StoreView) : List RecordId :=
  view.settled ++ view.pending

def statusOf? (view : StoreView) (id : RecordId) : Option RecordStatus :=
  (view.records id).map Record.status

/-- The number of records with a status among some names. -/
def countAmong (view : StoreView) (ids : List RecordId) (status : RecordStatus) : Nat :=
  ids.countP fun id => view.statusOf? id = some status

def count (view : StoreView) (status : RecordStatus) : Nat :=
  view.countAmong view.load status

def put (view : StoreView) (id : RecordId) (record : Record) : StoreView :=
  { view with records := Function.update view.records id (some record) }

/-- A new record comes first in the load order and last in the recency order. -/
def insert (view : StoreView) (id : RecordId) (record : Record) : StoreView :=
  { load := id :: view.load
    settled := view.settled
    pending := view.pending ++ [id]
    records := Function.update view.records id (some record)
    names := Function.update view.names record.key (some id) }

def update (view : StoreView) (id : RecordId) (change : Record → Record) : StoreView :=
  match view.records id with
  | none => view
  | some record => view.put id (change record)

def setStatus (view : StoreView) (id : RecordId) (status : RecordStatus) : StoreView :=
  view.update id fun record => { record with status }

def moveToLoadFront (view : StoreView) (id : RecordId) : StoreView :=
  match view.records id with
  | none => view
  | some _ => { view with load := id :: view.load.erase id }

def moveToLoadBack (view : StoreView) (id : RecordId) : StoreView :=
  match view.records id with
  | none => view
  | some _ => { view with load := view.load.erase id ++ [id] }

/-- The record joins the end of the part before the boundary, wherever it was. -/
def moveToLoadedTail (view : StoreView) (id : RecordId) : StoreView :=
  match view.records id with
  | none => view
  | some _ =>
    { view with settled := view.settled.erase id ++ [id], pending := view.pending.erase id }

def remove (view : StoreView) (id : RecordId) : StoreView :=
  match view.records id with
  | none => view
  | some record =>
    { load := view.load.erase id
      settled := view.settled.erase id
      pending := view.pending.erase id
      records := Function.update view.records id none
      names := Function.update view.names record.key none }

/-- Both orders hold every name that has a record exactly once, and a key names the one record it
belongs to. -/
structure WellFormed (view : StoreView) : Prop where
  load_nodup : view.load.Nodup
  recency_nodup : view.recency.Nodup
  mem_load : ∀ id, id ∈ view.load ↔ (view.records id).isSome
  mem_recency : ∀ id, id ∈ view.recency ↔ (view.records id).isSome
  names_iff : ∀ key id, view.names key = some id ↔
    ∃ record, view.records id = some record ∧ record.key = key

variable {view : StoreView} {id other : RecordId} {record old new : Record} {status : RecordStatus}

theorem statusOf?_eq (present : view.records id = some record) :
    view.statusOf? id = some record.status := by
  simp [statusOf?, present]

theorem records_put (view : StoreView) (id other : RecordId) (record : Record) :
    (view.put id record).records other =
      if other = id then some record else view.records other := by
  simp [put, Function.update_apply]

theorem statusOf?_put (view : StoreView) (id other : RecordId) (record : Record) :
    (view.put id record).statusOf? other =
      if other = id then some record.status else view.statusOf? other := by
  rw [statusOf?, records_put]
  split <;> rfl

theorem update_eq (present : view.records id = some record) (change : Record → Record) :
    view.update id change = view.put id (change record) := by
  simp [update, present]

theorem setStatus_eq (present : view.records id = some record) (status : RecordStatus) :
    view.setStatus id status = view.put id { record with status } :=
  update_eq present _

theorem moveToLoadFront_eq (present : view.records id = some record) :
    view.moveToLoadFront id = { view with load := id :: view.load.erase id } := by
  simp [moveToLoadFront, present]

theorem moveToLoadBack_eq (present : view.records id = some record) :
    view.moveToLoadBack id = { view with load := view.load.erase id ++ [id] } := by
  simp [moveToLoadBack, present]

theorem moveToLoadedTail_eq (present : view.records id = some record) :
    view.moveToLoadedTail id =
      { view with settled := view.settled.erase id ++ [id], pending := view.pending.erase id } := by
  simp [moveToLoadedTail, present]

theorem remove_eq (present : view.records id = some record) :
    view.remove id =
      { load := view.load.erase id
        settled := view.settled.erase id
        pending := view.pending.erase id
        records := Function.update view.records id none
        names := Function.update view.names record.key none } := by
  simp [remove, present]

namespace WellFormed

theorem load_mem (wellFormed : view.WellFormed) (present : view.records id = some record) :
    id ∈ view.load :=
  (wellFormed.mem_load id).mpr (by simp [present])

theorem recency_mem (wellFormed : view.WellFormed) (present : view.records id = some record) :
    id ∈ view.recency :=
  (wellFormed.mem_recency id).mpr (by simp [present])

theorem record_of_load_mem (wellFormed : view.WellFormed) (id_mem : id ∈ view.load) :
    ∃ record, view.records id = some record :=
  Option.isSome_iff_exists.mp ((wellFormed.mem_load id).mp id_mem)

theorem record_of_recency_mem (wellFormed : view.WellFormed) (id_mem : id ∈ view.recency) :
    ∃ record, view.records id = some record :=
  Option.isSome_iff_exists.mp ((wellFormed.mem_recency id).mp id_mem)

theorem names_eq (wellFormed : view.WellFormed) (present : view.records id = some record) :
    view.names record.key = some id :=
  (wellFormed.names_iff record.key id).mpr ⟨record, present, rfl⟩

theorem record_of_name (wellFormed : view.WellFormed) {key : ThumbnailKey}
    (named : view.names key = some id) : ∃ record, view.records id = some record := by
  rcases (wellFormed.names_iff key id).mp named with ⟨record, present, _⟩
  exact ⟨record, present⟩

theorem key_eq (wellFormed : view.WellFormed) {key : ThumbnailKey}
    (named : view.names key = some id) (present : view.records id = some record) :
    record.key = key := by
  rcases (wellFormed.names_iff key id).mp named with ⟨found, foundEq, keyEq⟩
  cases present.symm.trans foundEq
  exact keyEq

/-- Two records with one key are the same record. -/
theorem id_eq_of_key_eq (wellFormed : view.WellFormed) (left : view.records id = some old)
    (right : view.records other = some new) (keyEq : old.key = new.key) : id = other := by
  have named := wellFormed.names_eq left
  rw [keyEq, wellFormed.names_eq right] at named
  exact (Option.some.inj named).symm

theorem not_mem_load (wellFormed : view.WellFormed) (absent : view.records id = none) :
    id ∉ view.load := by
  rw [wellFormed.mem_load, absent]
  simp

theorem not_mem_recency (wellFormed : view.WellFormed) (absent : view.records id = none) :
    id ∉ view.recency := by
  rw [wellFormed.mem_recency, absent]
  simp

/-- A record is on one side of the boundary only. -/
theorem not_mem_settled_of_mem_pending (wellFormed : view.WellFormed) (id_mem : id ∈ view.pending) :
    id ∉ view.settled := by
  intro other_mem
  exact List.disjoint_of_nodup_append wellFormed.recency_nodup other_mem id_mem

theorem not_mem_pending_of_mem_settled (wellFormed : view.WellFormed) (id_mem : id ∈ view.settled) :
    id ∉ view.pending := by
  intro other_mem
  exact List.disjoint_of_nodup_append wellFormed.recency_nodup id_mem other_mem

theorem settled_nodup (wellFormed : view.WellFormed) : view.settled.Nodup :=
  List.Nodup.of_append_left wellFormed.recency_nodup

theorem pending_nodup (wellFormed : view.WellFormed) : view.pending.Nodup :=
  List.Nodup.of_append_right wellFormed.recency_nodup

theorem empty : StoreView.empty.WellFormed := by
  refine ⟨List.nodup_nil, List.nodup_nil, ?_, ?_, ?_⟩ <;>
    simp [StoreView.empty, StoreView.recency]

theorem put (wellFormed : view.WellFormed) (present : view.records id = some old)
    (keyEq : new.key = old.key) : (view.put id new).WellFormed := by
  refine ⟨wellFormed.load_nodup, wellFormed.recency_nodup, ?_, ?_, ?_⟩
  · intro other
    rw [records_put]
    split
    · rename_i same
      subst same
      simp only [Option.isSome_some, iff_true]
      exact wellFormed.load_mem present
    · exact wellFormed.mem_load other
  · intro other
    rw [records_put]
    split
    · rename_i same
      subst same
      simp only [Option.isSome_some, iff_true]
      exact wellFormed.recency_mem present
    · exact wellFormed.mem_recency other
  · intro key other
    rw [records_put]
    change view.names key = some other ↔ _
    rw [wellFormed.names_iff]
    split
    · rename_i same
      subst same
      simp [present, keyEq]
    · rfl

theorem insert (wellFormed : view.WellFormed) (fresh : view.records id = none)
    (absent : view.names record.key = none) : (view.insert id record).WellFormed := by
  have notLoad := wellFormed.not_mem_load fresh
  have notRecency := wellFormed.not_mem_recency fresh
  refine ⟨List.nodup_cons.mpr ⟨notLoad, wellFormed.load_nodup⟩, ?_, ?_, ?_, ?_⟩
  · change (view.settled ++ (view.pending ++ [id])).Nodup
    rw [← List.append_assoc]
    exact List.nodup_append_comm.mp (List.nodup_cons.mpr ⟨notRecency, wellFormed.recency_nodup⟩)
  · intro other
    simp only [StoreView.insert, List.mem_cons, Function.update_apply]
    by_cases same : other = id <;> simp [same, wellFormed.mem_load]
  · intro other
    have old := wellFormed.mem_recency other
    simp only [StoreView.recency, List.mem_append] at old
    simp only [StoreView.insert, StoreView.recency, List.mem_append, List.mem_singleton,
      Function.update_apply, ← or_assoc, old]
    by_cases same : other = id <;> simp [same]
  · intro key other
    simp only [StoreView.insert, Function.update_apply]
    by_cases sameKey : key = record.key <;> by_cases same : other = id
    · subst sameKey same
      simp
    · subst sameKey
      simp only [if_true, Option.some.injEq, Ne.symm same, false_iff, same, if_false]
      rw [← wellFormed.names_iff, absent]
      simp
    · subst same
      simp [sameKey, Ne.symm sameKey, wellFormed.names_iff, fresh]
    · simp [sameKey, same, wellFormed.names_iff]

theorem rearrange (wellFormed : view.WellFormed) {load settled pending : List RecordId}
    (loadPerm : load.Perm view.load) (recencyPerm : (settled ++ pending).Perm view.recency) :
    WellFormed { view with load, settled, pending } := by
  refine ⟨loadPerm.nodup_iff.mpr wellFormed.load_nodup,
    recencyPerm.nodup_iff.mpr wellFormed.recency_nodup, ?_, ?_, wellFormed.names_iff⟩
  · intro other
    rw [loadPerm.mem_iff]
    exact wellFormed.mem_load other
  · intro other
    change other ∈ settled ++ pending ↔ _
    rw [recencyPerm.mem_iff]
    exact wellFormed.mem_recency other

/-- Without a record, both parts of the recency order lose it, each on its side. -/
theorem erase_recency (wellFormed : view.WellFormed) (id : RecordId) :
    view.settled.erase id ++ view.pending.erase id = view.recency.erase id := by
  by_cases id_mem : id ∈ view.settled
  · rw [List.erase_of_not_mem (wellFormed.not_mem_pending_of_mem_settled id_mem),
      StoreView.recency, List.erase_append_left _ id_mem]
  · rw [List.erase_of_not_mem id_mem, StoreView.recency, List.erase_append_right _ id_mem]

theorem recency_perm (wellFormed : view.WellFormed) (present : view.records id = some record) :
    (view.settled.erase id ++ [id] ++ view.pending.erase id).Perm view.recency := by
  rw [List.append_assoc, List.singleton_append]
  refine List.perm_middle.trans ?_
  rw [wellFormed.erase_recency]
  exact (List.perm_cons_erase (wellFormed.recency_mem present)).symm

theorem remove (wellFormed : view.WellFormed) (id : RecordId) : (view.remove id).WellFormed := by
  cases present : view.records id with
  | none => simpa [StoreView.remove, present] using wellFormed
  | some record =>
      rw [remove_eq present]
      refine ⟨wellFormed.load_nodup.erase id, ?_, ?_, ?_, ?_⟩
      · change (view.settled.erase id ++ view.pending.erase id).Nodup
        rw [wellFormed.erase_recency]
        exact wellFormed.recency_nodup.erase id
      · intro other
        simp only [wellFormed.load_nodup.mem_erase_iff, wellFormed.mem_load, Function.update_apply]
        by_cases same : other = id <;> simp [same]
      · intro other
        change other ∈ view.settled.erase id ++ view.pending.erase id ↔ _
        simp only [wellFormed.erase_recency, wellFormed.recency_nodup.mem_erase_iff,
          wellFormed.mem_recency, Function.update_apply]
        by_cases same : other = id <;> simp [same]
      · intro key other
        simp only [Function.update_apply]
        by_cases same : other = id
        · subst same
          simp only [if_true, reduceCtorEq, false_and, exists_false, iff_false]
          split
          · simp
          · rename_i different
            rw [wellFormed.names_iff]
            rintro ⟨found, foundEq, keyEq⟩
            rw [present, Option.some.injEq] at foundEq
            exact different (by rw [← keyEq, foundEq])
        · by_cases sameKey : key = record.key
          · subst sameKey
            simp only [if_true, reduceCtorEq, if_neg same, false_iff]
            rintro ⟨found, foundEq, keyEq⟩
            exact same (wellFormed.id_eq_of_key_eq foundEq present keyEq)
          · simp [same, sameKey, wellFormed.names_iff]

end WellFormed

theorem count_eq_of_load_perm {load : List RecordId} (perm : load.Perm view.load)
    (settled pending : List RecordId) (status : RecordStatus) :
    count { view with load, settled, pending } status = view.count status :=
  perm.countP_eq _

/-- Away from a name, only the other records are counted. -/
theorem countAmong_congr (view changed : StoreView) (status : RecordStatus) {ids : List RecordId}
    (absent : id ∉ ids)
    (same : ∀ other, other ≠ id → changed.records other = view.records other) :
    changed.countAmong ids status = view.countAmong ids status := by
  apply List.countP_congr
  intro other otherMem
  have different : other ≠ id := fun equal => absent (equal ▸ otherMem)
  simp [statusOf?, same other different]

/-- A record counts on top of the others. -/
theorem WellFormed.count_eq (wellFormed : view.WellFormed)
    (present : view.records id = some record) (status : RecordStatus) :
    view.count status =
      view.countAmong (view.load.erase id) status + if record.status = status then 1 else 0 := by
  have perm := List.perm_cons_erase (wellFormed.load_mem present)
  rw [count, countAmong, perm.countP_eq, List.countP_cons]
  simp [statusOf?_eq present, countAmong]

theorem WellFormed.le_count (wellFormed : view.WellFormed)
    (present : view.records id = some record) (status : RecordStatus) :
    (if record.status = status then 1 else 0) ≤ view.count status := by
  rw [wellFormed.count_eq present]
  exact Nat.le_add_left _ _

theorem count_insert (wellFormed : view.WellFormed) (fresh : view.records id = none)
    (status : RecordStatus) : (view.insert id record).count status =
      view.count status + if record.status = status then 1 else 0 := by
  have others := countAmong_congr view (view.insert id record) status
    (wellFormed.not_mem_load fresh) (by
      intro other different
      simp [StoreView.insert, Function.update_of_ne different])
  have own : (view.insert id record).statusOf? id = some record.status := by
    simp [statusOf?, StoreView.insert]
  have first : (view.insert id record).count status =
      (view.insert id record).countAmong (id :: view.load) status := rfl
  rw [first, countAmong, List.countP_cons, ← countAmong, others, own, count]
  simp

theorem count_put (wellFormed : view.WellFormed) (present : view.records id = some old)
    (keyEq : new.key = old.key) (status : RecordStatus) :
    (view.put id new).count status + (if old.status = status then 1 else 0) =
      view.count status + if new.status = status then 1 else 0 := by
  have others := countAmong_congr view (view.put id new) status
    (wellFormed.load_nodup.not_mem_erase : id ∉ _) (by
      intro other different
      rw [records_put, if_neg different])
  have own : (view.put id new).records id = some new := by simp [records_put]
  have before := wellFormed.count_eq present status
  have after := (wellFormed.put present keyEq).count_eq own status
  change _ = (view.put id new).countAmong (view.load.erase id) status + _ at after
  omega

theorem count_remove (wellFormed : view.WellFormed) (present : view.records id = some record)
    (status : RecordStatus) :
    (view.remove id).count status + (if record.status = status then 1 else 0) =
      view.count status := by
  have others := countAmong_congr view (view.remove id) status
    (wellFormed.load_nodup.not_mem_erase : id ∉ _) (by
      intro other different
      simp [remove_eq present, Function.update_of_ne different])
  have before := wellFormed.count_eq present status
  have after : (view.remove id).count status =
      (view.remove id).countAmong (view.load.erase id) status := by
    rw [count, remove_eq present]
  omega

end StoreView

end Thumbnails
