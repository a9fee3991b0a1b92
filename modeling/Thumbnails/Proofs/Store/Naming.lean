import Thumbnails.Proofs.Store.Representation

/-!
# Naming

A name that an insertion has answered stands for the inserted record until that is removed. From
then on it stands for nothing, even when its slot holds another record or its key has one again, and
no insertion answers it a second time. That is so until the generation of its slot has come
round, which takes `UInt32.size` removals from the slot.

Operations come in any order and with any names here, and records may be inserted under keys that
have one already: only slots and generations matter.
-/

namespace Thumbnails

/-- An operation on a store. -/
inductive StoreCall where
  | insert (record : Record)
  | update (id : RecordId) (change : Record → Record)
  | setStatus (id : RecordId) (status : RecordStatus)
  | moveToLoadFront (id : RecordId)
  | moveToLoadBack (id : RecordId)
  | moveToLoadedTail (id : RecordId)
  | remove (id : RecordId)

/-- What an operation makes of the record of a name, unless it removes it. -/
def StoreCall.revise (id : RecordId) (record : Record) : StoreCall → Record
  | .update other change => if other = id then change record else record
  | .setStatus other status => if other = id then { record with status } else record
  | _ => record

namespace Store

def perform (store : Store) : StoreCall → Store
  | .insert record => (store.insert record).2
  | .update id change => store.update id change
  | .setStatus id status => store.setStatus id status
  | .moveToLoadFront id => store.moveToLoadFront id
  | .moveToLoadBack id => store.moveToLoadBack id
  | .moveToLoadedTail id => store.moveToLoadedTail id
  | .remove id => (store.remove id).2

def performAll (store : Store) (calls : List StoreCall) : Store :=
  calls.foldl perform store

/-- How often a slot loses its record. -/
def vacations (store : Store) (slot : Nat) : List StoreCall → Nat
  | [] => 0
  | call :: calls =>
    (if store.vacates (store.perform call) slot then 1 else 0) +
      (store.perform call).vacations slot calls

/-- A name that reaches nothing. -/
structure Lacks (store : Store) (id : RecordId) : Prop where
  get : store.get? id = none
  remove : store.remove id = (none, store)
  update : ∀ change, store.update id change = store
  setStatus : ∀ status, store.setStatus id status = store
  moveToLoadFront : store.moveToLoadFront id = store
  moveToLoadBack : store.moveToLoadBack id = store
  moveToLoadedTail : store.moveToLoadedTail id = store

/-- What becomes of a name that was answered when a record was inserted. -/
structure Naming (issued : Store) (id : RecordId) (record : Record) (since : List StoreCall) :
    Prop where
  /-- Until it is removed, the record is only changed under its own name. -/
  resolves : (∀ call ∈ since, call ≠ .remove id) →
    (issued.performAll since).get? id = some (since.foldl (StoreCall.revise id) record)
  lapses : .remove id ∈ since → issued.vacations id.slot since < UInt32.size →
    (issued.performAll since).Lacks id
  unique : issued.vacations id.slot since < UInt32.size →
    ∀ other, ((issued.performAll since).insert other).1 ≠ id

variable {store new : Store} {id : RecordId} {record : Record} {call : StoreCall}
  {calls : List StoreCall} {slot : Nat}

theorem lacks_of_get? (absent : store.get? id = none) : store.Lacks id where
  get := absent
  remove := by rw [Store.remove, absent]
  update change := by rw [Store.update, absent]
  setStatus status := by rw [Store.setStatus, absent]
  moveToLoadFront := by rw [Store.moveToLoadFront, absent]
  moveToLoadBack := by rw [Store.moveToLoadBack, absent]
  moveToLoadedTail := by rw [Store.moveToLoadedTail, absent]

theorem turn_perform (store : Store) (call : StoreCall) : Turn store (store.perform call) := by
  cases call with
  | insert record => exact .filled (fills_insert store record)
  | update id change => exact .kept (retains_update store id change)
  | setStatus id status => exact .kept (retains_setStatus store id status)
  | moveToLoadFront id => exact .kept (retains_moveToLoadFront store id)
  | moveToLoadBack id => exact .kept (retains_moveToLoadBack store id)
  | moveToLoadedTail id => exact .kept (retains_moveToLoadedTail store id)
  | remove id => exact turn_remove store id

theorem performAll_cons (store : Store) (call : StoreCall) (calls : List StoreCall) :
    store.performAll (call :: calls) = (store.perform call).performAll calls :=
  rfl

theorem Spare.performAll (spare : store.Spare) (calls : List StoreCall) :
    (store.performAll calls).Spare := by
  induction calls generalizing store with
  | nil => exact spare
  | cons call calls ih => exact ih ((store.turn_perform call).spare spare)

/-- Where the record of another name changes in place, or goes, that of a name stays. -/
theorem get?_of_set_other {other : RecordId} {old : Record} {generation : UInt32}
    {changed : Option Record} (present : store.get? other = some old)
    (slotsEq : new.slots = store.slots.set other.slot ⟨generation, changed⟩)
    (kept : generation = other.generation ∨ changed = none) (different : other ≠ id) :
    new.get? id = store.get? id := by
  have current := (get?_eq_some_iff.mp present).1
  rw [get?_of_set current slotsEq kept, if_neg (Ne.symm different)]

theorem get?_insert_other (spare : store.Spare) (found : store.get? id = some record)
    (other : Record) : (store.insert other).2.get? id = some record := by
  rw [Represents.get?_insert, if_neg, found]
  rintro rfl
  have occupied := occupied_of_get? found
  rw [show (store.insert other).1.slot = store.takeSlot.1 from rfl, spare.takeSlot_vacant]
    at occupied
  cases occupied

theorem get?_update (found : store.get? id = some record) (other : RecordId)
    (change : Record → Record) :
    (store.update other change).get? id = some (if other = id then change record else record) := by
  rw [update]
  split
  · rename_i absent
    rw [if_neg, found]
    rintro rfl
    cases absent.symm.trans found
  · rename_i old present
    have current := (get?_eq_some_iff.mp present).1
    split
    · rename_i same
      cases same
      cases present.symm.trans found
      exact (get?_of_set current rfl (.inl current) id).trans (if_pos rfl)
    · rename_i different
      rw [get?_of_set_other present rfl (.inl current) different, found]

theorem get?_setStatus (found : store.get? id = some record) (other : RecordId)
    (status : RecordStatus) : (store.setStatus other status).get? id =
      some (if other = id then { record with status } else record) := by
  have updated := get?_update found other fun record => { record with status }
  rw [← updated]
  rw [setStatus, update]
  split
  · rfl
  · simp only
    split
    · rfl
    · rw [get?, get?, countIn_slots, countOut_slots]

theorem get?_remove_other (found : store.get? id = some record) {other : RecordId}
    (different : other ≠ id) : (store.remove other).2.get? id = some record := by
  rw [remove]
  split
  · exact found
  · rename_i old present
    rw [get?_of_set_other present (countOut_slots _ _) (.inr rfl) different, found]

/-- A record stays under its name unless it is removed, and only changes under that name. -/
theorem get?_perform (spare : store.Spare) (found : store.get? id = some record)
    (kept : call ≠ .remove id) : (store.perform call).get? id = some (call.revise id record) := by
  cases call with
  | insert other => exact get?_insert_other spare found other
  | update other change => exact get?_update found other change
  | setStatus other status => exact get?_setStatus found other status
  | moveToLoadFront other =>
      rcases moveToLoadFront_eq store other with ⟨load, movedEq⟩
      rw [perform, movedEq]
      exact found
  | moveToLoadBack other =>
      rcases moveToLoadBack_eq store other with ⟨load, movedEq⟩
      rw [perform, movedEq]
      exact found
  | moveToLoadedTail other =>
      rcases moveToLoadedTail_eq store other with ⟨recency, boundary, movedEq⟩
      rw [perform, movedEq]
      exact found
  | remove other => exact get?_remove_other found fun same => kept (by rw [same])

theorem get?_performAll (spare : store.Spare) (found : store.get? id = some record)
    (kept : ∀ call ∈ calls, call ≠ .remove id) :
    (store.performAll calls).get? id = some (calls.foldl (StoreCall.revise id) record) := by
  induction calls generalizing store record with
  | nil => exact found
  | cons call calls ih =>
      have next := get?_perform spare found (kept call List.mem_cons_self)
      exact ih ((store.turn_perform call).spare spare) next fun other otherMem =>
        kept other (List.mem_cons_of_mem _ otherMem)

theorem generationAt_performAll (store : Store) (slot : Nat) (calls : List StoreCall) :
    (store.performAll calls).generationAt slot =
      store.generationAt slot + UInt32.ofNat (store.vacations slot calls) := by
  induction calls generalizing store with
  | nil => exact (UInt32.add_zero _).symm
  | cons call calls ih =>
      rw [performAll_cons, ih, (store.turn_perform call).generation_eq, vacations, UInt32.ofNat_add,
        UInt32.add_assoc]
      split <;> rfl

/-- A slot that is never vacated keeps a record. -/
theorem occupied_performAll (occupied : store.occupied slot = true)
    (kept : store.vacations slot calls = 0) : (store.performAll calls).occupied slot = true := by
  induction calls generalizing store with
  | nil => exact occupied
  | cons call calls ih =>
      rw [vacations, Nat.add_eq_zero_iff] at kept
      apply ih _ kept.2
      by_contra vacant
      simp [vacates, occupied, vacant] at kept

/-- The removal of a record vacates its slot. -/
theorem vacations_pos (spare : store.Spare) (found : store.get? id = some record)
    (removed : .remove id ∈ calls) : 0 < store.vacations id.slot calls := by
  induction calls generalizing store record with
  | nil => cases removed
  | cons call calls ih =>
      by_cases last : call = .remove id
      · have vacant : (store.remove id).2.occupied id.slot = false := by
          simp [remove, found, occupied, recordAt?]
        have vacated : store.vacates (store.perform (.remove id)) id.slot = true := by
          simp [vacates, perform, occupied_of_get? found, vacant]
        rw [last, vacations, vacated]
        exact Nat.lt_of_lt_of_le Nat.zero_lt_one (Nat.le_add_right _ _)
      · have later : .remove id ∈ calls := (List.mem_cons.mp removed).resolve_left (Ne.symm last)
        have next := get?_perform spare found last
        exact Nat.lt_of_lt_of_le (ih ((store.turn_perform call).spare spare) next later)
          (Nat.le_add_left _ _)

/-- A generation comes back only when its slot has been vacated often enough. -/
theorem eq_zero_of_add_ofNat_eq {generation : UInt32} {vacations : Nat}
    (bounded : vacations < UInt32.size) (same : generation + UInt32.ofNat vacations = generation) :
    vacations = 0 := by
  have zero : UInt32.ofNat vacations = 0 := by
    rw [← UInt32.add_right_inj generation, same, UInt32.add_zero]
  have value := congrArg UInt32.toNat zero
  rwa [UInt32.toNat_ofNat_of_lt' bounded] at value

theorem vacations_eq_zero (found : store.get? id = some record)
    (bounded : store.vacations id.slot calls < UInt32.size)
    (same : (store.performAll calls).generationAt id.slot = id.generation) :
    store.vacations id.slot calls = 0 := by
  apply eq_zero_of_add_ofNat_eq bounded
  rw [← generationAt_performAll, same]
  exact (get?_eq_some_iff.mp found).1.symm

/-- A name that was answered has a meaning until its record is removed, and none after that. -/
theorem Spare.naming (spare : store.Spare) (found : store.get? id = some record)
    (calls : List StoreCall) : store.Naming id record calls where
  resolves kept := get?_performAll spare found kept
  lapses removed bounded := by
    apply lacks_of_get?
    by_contra present
    rcases Option.ne_none_iff_exists'.mp present with ⟨other, otherFound⟩
    have unvacated := vacations_eq_zero found bounded (get?_eq_some_iff.mp otherFound).1
    exact Nat.ne_of_gt (vacations_pos spare found removed) unvacated
  unique bounded other := by
    rintro same
    have slotEq : (store.performAll calls).takeSlot.1 = id.slot := congrArg RecordId.slot same
    have generationEq := congrArg RecordId.generation same
    change (store.performAll calls).generationAt (store.performAll calls).takeSlot.1 = _
      at generationEq
    rw [slotEq] at generationEq
    have unvacated := vacations_eq_zero found bounded generationEq
    have occupied := occupied_performAll (occupied_of_get? found) unvacated
    rw [← slotEq, (spare.performAll calls).takeSlot_vacant] at occupied
    cases occupied

/-- Whatever came before, and whatever comes after. -/
theorem naming_insert (before : List StoreCall) (record : Record) (since : List StoreCall) :
    ((empty.performAll before).insert record).2.Naming ((empty.performAll before).insert record).1
      record since := by
  have spare := Spare.empty.performAll before
  have inserted := (Turn.filled (fills_insert (empty.performAll before) record)).spare spare
  apply inserted.naming
  rw [Represents.get?_insert, if_pos rfl]

end Store

end Thumbnails
