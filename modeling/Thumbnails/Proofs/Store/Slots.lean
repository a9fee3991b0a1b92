import Thumbnails.Store.Basic

/-!
# Slots

What an operation can do to the slots of a store: it leaves them as they are, fills one that was
free, or vacates one. The generation of a slot goes up by one whenever the slot is vacated, and at
no other time. An insertion takes a slot that has no record, because the free list holds no other
slots and none of them twice.
-/

namespace Thumbnails

namespace Store

def generationAt (store : Store) (slot : Nat) : UInt32 :=
  (store.slots.get slot).generation

def occupied (store : Store) (slot : Nat) : Bool :=
  (store.recordAt? slot).isSome

/-- Whether a slot loses its record from one store to another. -/
def vacates (old new : Store) (slot : Nat) : Bool :=
  old.occupied slot && !new.occupied slot

/-- The slots that an insertion may take have no record. -/
structure Spare (store : Store) : Prop where
  nodup : store.free.Nodup
  unused : ∀ slot ∈ store.free, store.recordAt? slot = none

/-- From one store to another, the slots are used as before. -/
structure Retains (old new : Store) : Prop where
  free : new.free = old.free
  generation : ∀ slot, new.generationAt slot = old.generationAt slot
  occupied : ∀ slot, new.occupied slot = old.occupied slot

/-- From one store to another, the next slot gets a record. -/
structure Fills (old new : Store) : Prop where
  free : new.free = old.takeSlot.2
  generation : ∀ slot, new.generationAt slot = old.generationAt slot
  occupied : ∀ slot, new.occupied slot = (slot = old.takeSlot.1 || old.occupied slot)

/-- From one store to another, a slot loses its record. -/
structure Frees (old new : Store) (slot : Nat) : Prop where
  present : old.occupied slot = true
  free : new.free = slot :: old.free
  generation : ∀ other,
    new.generationAt other = old.generationAt other + if other = slot then 1 else 0
  occupied : ∀ other, new.occupied other = (other ≠ slot && old.occupied other)

/-- What an operation can do to the slots. -/
inductive Turn (old new : Store) : Prop where
  | kept (retains : old.Retains new)
  | filled (fills : old.Fills new)
  | vacated (slot : Nat) (frees : old.Frees new slot)

/-- From one store to another, slots are vacated but not filled. -/
structure Thins (old new : Store) : Prop where
  generation : ∀ slot,
    new.generationAt slot = old.generationAt slot + if old.vacates new slot then 1 else 0
  occupied : ∀ slot, new.occupied slot = true → old.occupied slot = true

variable {store old middle new : Store} {id : RecordId} {record : Record} {slot : Nat}

theorem get?_eq_some_iff : store.get? id = some record ↔
    (store.slots.get id.slot).generation = id.generation ∧
      (store.slots.get id.slot).record = some record := by
  simp only [get?]
  split <;> simp_all

theorem occupied_of_get? (found : store.get? id = some record) :
    store.occupied id.slot = true := by
  rw [occupied, recordAt?, (get?_eq_some_iff.mp found).2]
  rfl

theorem get?_isSome_iff : (store.get? id).isSome ↔
    store.generationAt id.slot = id.generation ∧ store.occupied id.slot = true := by
  simp only [get?, generationAt, occupied, recordAt?]
  split <;> simp_all

namespace Spare

theorem empty : Store.empty.Spare :=
  ⟨List.nodup_nil, nofun⟩

theorem takeSlot_unused (spare : store.Spare) : store.recordAt? store.takeSlot.1 = none := by
  rw [takeSlot]
  split
  · rename_i slot free freeEq
    exact spare.unused slot (by simp [freeEq])
  · simp [recordAt?, Table.get, Table.size]
    rfl

theorem takeSlot_vacant (spare : store.Spare) : store.occupied store.takeSlot.1 = false := by
  rw [occupied, spare.takeSlot_unused]
  rfl

theorem mem_free_of_mem_takeSlot (spare : store.Spare) (slotMem : slot ∈ store.takeSlot.2) :
    slot ∈ store.free ∧ slot ≠ store.takeSlot.1 := by
  have nodup := spare.nodup
  revert slotMem
  rw [takeSlot]
  split
  · rename_i first free freeEq
    intro slotMem
    rw [freeEq] at nodup ⊢
    refine ⟨List.mem_cons_of_mem _ slotMem, ?_⟩
    rintro rfl
    exact (List.nodup_cons.mp nodup).1 slotMem
  · simp

theorem takeSlot_free_nodup (spare : store.Spare) : store.takeSlot.2.Nodup := by
  have nodup := spare.nodup
  rw [takeSlot]
  split
  · rename_i first free freeEq
    rw [freeEq] at nodup
    exact (List.nodup_cons.mp nodup).2
  · exact List.nodup_nil

end Spare

theorem Retains.refl (store : Store) : store.Retains store :=
  ⟨rfl, fun _ => rfl, fun _ => rfl⟩

theorem Retains.trans (first : old.Retains middle) (second : middle.Retains new) :
    old.Retains new where
  free := second.free.trans first.free
  generation slot := (second.generation slot).trans (first.generation slot)
  occupied slot := (second.occupied slot).trans (first.occupied slot)

theorem Retains.of_slots_eq (slotsEq : new.slots = old.slots) (freeEq : new.free = old.free) :
    old.Retains new := by
  refine ⟨freeEq, ?_, ?_⟩
  · intro slot
    rw [generationAt, slotsEq, generationAt]
  · intro slot
    rw [Store.occupied, recordAt?, slotsEq, Store.occupied, recordAt?]

/-- A record that changes in place stays in its slot. -/
theorem Retains.of_putRecord {changed : Record} (found : old.get? id = some record)
    (slotsEq : new.slots = (old.putRecord id.slot (some changed)).slots)
    (freeEq : new.free = old.free) : old.Retains new := by
  have present := occupied_of_get? found
  refine ⟨freeEq, ?_, ?_⟩
  · intro slot
    rw [generationAt, slotsEq, putRecord, Table.get_set]
    split
    · rename_i same
      rw [same, generationAt]
    · rfl
  · intro slot
    rw [Store.occupied, recordAt?, slotsEq, putRecord, Table.get_set]
    split
    · rename_i same
      rw [same, present]
      rfl
    · rfl

@[simp]
theorem countIn_slots (store : Store) (status : RecordStatus) :
    (store.countIn status).slots = store.slots := by
  cases status <;> rfl

@[simp]
theorem countIn_free (store : Store) (status : RecordStatus) :
    (store.countIn status).free = store.free := by
  cases status <;> rfl

@[simp]
theorem countOut_slots (store : Store) (status : RecordStatus) :
    (store.countOut status).slots = store.slots := by
  cases status <;> rfl

@[simp]
theorem countOut_free (store : Store) (status : RecordStatus) :
    (store.countOut status).free = store.free := by
  cases status <;> rfl

theorem fills_insert (store : Store) (record : Record) :
    store.Fills (store.insert record).2 := by
  have slotsEq : (store.insert record).2.slots =
      (store.putRecord store.takeSlot.1 (some record)).slots := by simp [insert]
  refine ⟨by simp [insert], ?_, ?_⟩
  · intro slot
    rw [generationAt, slotsEq, putRecord, Table.get_set]
    split
    · rename_i same
      rw [same, generationAt]
    · rfl
  · intro slot
    rw [occupied, recordAt?, slotsEq, putRecord, Table.get_set]
    split
    · rename_i same
      simp [same]
    · rename_i different
      simp [different, occupied, recordAt?]

theorem retains_update (store : Store) (id : RecordId) (change : Record → Record) :
    store.Retains (store.update id change) := by
  rw [update]
  split
  · exact .refl store
  · rename_i record found
    exact .of_putRecord found rfl rfl

theorem retains_setStatus (store : Store) (id : RecordId) (status : RecordStatus) :
    store.Retains (store.setStatus id status) := by
  rw [setStatus]
  split
  · exact .refl store
  · rename_i record found
    simp only
    split
    · exact .of_putRecord found rfl rfl
    · apply Retains.of_putRecord found
      · exact (countIn_slots _ _).trans (countOut_slots _ _)
      · exact (countIn_free _ _).trans (countOut_free _ _)

theorem moveToLoadFront_eq (store : Store) (id : RecordId) :
    ∃ load, store.moveToLoadFront id = { store with load } := by
  rw [moveToLoadFront]
  split
  · exact ⟨store.load, rfl⟩
  · split
    · exact ⟨store.load, rfl⟩
    · exact ⟨_, rfl⟩

theorem moveToLoadBack_eq (store : Store) (id : RecordId) :
    ∃ load, store.moveToLoadBack id = { store with load } := by
  rw [moveToLoadBack]
  split
  · exact ⟨store.load, rfl⟩
  · split
    · exact ⟨store.load, rfl⟩
    · exact ⟨_, rfl⟩

theorem moveToLoadedTail_eq (store : Store) (id : RecordId) :
    ∃ recency boundary, store.moveToLoadedTail id = { store with recency, boundary } := by
  rw [moveToLoadedTail]
  split
  · exact ⟨store.recency, store.boundary, rfl⟩
  · split
    · exact ⟨store.recency, _, rfl⟩
    · exact ⟨_, store.boundary, rfl⟩

theorem retains_moveToLoadFront (store : Store) (id : RecordId) :
    store.Retains (store.moveToLoadFront id) := by
  rcases moveToLoadFront_eq store id with ⟨load, movedEq⟩
  exact .of_slots_eq (by rw [movedEq]) (by rw [movedEq])

theorem retains_moveToLoadBack (store : Store) (id : RecordId) :
    store.Retains (store.moveToLoadBack id) := by
  rcases moveToLoadBack_eq store id with ⟨load, movedEq⟩
  exact .of_slots_eq (by rw [movedEq]) (by rw [movedEq])

theorem retains_moveToLoadedTail (store : Store) (id : RecordId) :
    store.Retains (store.moveToLoadedTail id) := by
  rcases moveToLoadedTail_eq store id with ⟨recency, boundary, movedEq⟩
  exact .of_slots_eq (by rw [movedEq]) (by rw [movedEq])

theorem frees_remove (found : store.get? id = some record) :
    store.Frees (store.remove id).2 id.slot := by
  have generationEq := (get?_eq_some_iff.mp found).1
  rw [remove, found]
  refine ⟨occupied_of_get? found, by simp, ?_, ?_⟩
  · intro other
    simp only [generationAt, countOut_slots, Table.get_set]
    split
    · rename_i same
      rw [same, ← generationEq]
    · exact (UInt32.add_zero _).symm
  · intro other
    simp only [occupied, recordAt?, countOut_slots, Table.get_set]
    split
    · rename_i same
      simp [same]
    · rename_i different
      simp [different]

theorem turn_remove (store : Store) (id : RecordId) : Turn store (store.remove id).2 := by
  cases found : store.get? id with
  | none =>
      rw [remove, found]
      exact .kept (.refl store)
  | some record => exact .vacated id.slot (frees_remove found)

namespace Turn

theorem spare (turn : Turn old new) (spare : old.Spare) : new.Spare := by
  have vacant : ∀ {store : Store} {slot}, store.recordAt? slot = none ↔
      store.occupied slot = false := by simp [Store.occupied]
  cases turn with
  | kept retains =>
      refine ⟨retains.free ▸ spare.nodup, ?_⟩
      intro slot slotMem
      rw [retains.free] at slotMem
      rw [vacant, retains.occupied, ← vacant]
      exact spare.unused slot slotMem
  | filled fills =>
      refine ⟨fills.free ▸ spare.takeSlot_free_nodup, ?_⟩
      intro slot slotMem
      rw [fills.free] at slotMem
      rcases spare.mem_free_of_mem_takeSlot slotMem with ⟨oldMem, different⟩
      rw [vacant, fills.occupied, vacant.mp (spare.unused slot oldMem)]
      simpa using different
  | vacated slot frees =>
      have notMem : slot ∉ old.free := by
        intro slotMem
        have present := frees.present
        rw [vacant.mp (spare.unused slot slotMem)] at present
        cases present
      refine ⟨frees.free ▸ List.nodup_cons.mpr ⟨notMem, spare.nodup⟩, ?_⟩
      intro other otherMem
      rw [vacant, frees.occupied]
      rw [frees.free] at otherMem
      rcases List.mem_cons.mp otherMem with rfl | oldMem
      · simp
      · rw [vacant.mp (spare.unused other oldMem), Bool.and_false]

/-- A generation goes up by one when its slot is vacated, and not otherwise. -/
theorem generation_eq (turn : Turn old new) (slot : Nat) :
    new.generationAt slot = old.generationAt slot + if old.vacates new slot then 1 else 0 := by
  cases turn with
  | kept retains => simp [retains.generation, vacates, retains.occupied]
  | filled fills =>
      cases present : old.occupied slot <;>
        simp [fills.generation, vacates, fills.occupied, present]
  | vacated vacatedSlot frees =>
      rw [frees.generation, vacates, frees.occupied]
      by_cases same : slot = vacatedSlot
      · simp [same, frees.present]
      · simp [same]

end Turn

namespace Thins

theorem of_retains (retains : old.Retains new) : old.Thins new := by
  refine ⟨(Turn.kept retains).generation_eq, ?_⟩
  intro slot present
  rwa [retains.occupied] at present

theorem refl (store : Store) : store.Thins store :=
  of_retains (.refl store)

theorem of_remove (store : Store) (id : RecordId) : store.Thins (store.remove id).2 := by
  cases found : store.get? id with
  | none =>
      rw [remove, found]
      exact refl store
  | some record =>
      have frees := frees_remove found
      refine ⟨(Turn.vacated id.slot frees).generation_eq, ?_⟩
      intro slot present
      rw [frees.occupied, Bool.and_eq_true] at present
      exact present.2

/-- A slot is vacated once at most, because nothing fills it again. -/
theorem trans (first : old.Thins middle) (second : middle.Thins new) : old.Thins new := by
  refine ⟨?_, fun slot present => first.occupied slot (second.occupied slot present)⟩
  intro slot
  have before := first.occupied slot
  have after := second.occupied slot
  rw [second.generation, first.generation]
  cases oldEq : old.occupied slot <;> cases middleEq : middle.occupied slot <;>
    cases newEq : new.occupied slot <;> simp_all [vacates]

end Thins

end Store

end Thumbnails
