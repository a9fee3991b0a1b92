import Thumbnails.Proofs.Store.Chain
import Thumbnails.Proofs.Store.KeyIndex
import Thumbnails.Proofs.Store.Slots
import Thumbnails.Proofs.Store.View

/-!
# Stores represent views

`Store.Represents` says that a store holds what a view says, and that its slots, chains, index and
free list fit together. The empty store represents the empty view, and every operation of the
store leads from what it represents to the counterpart of the operation on views.

The chains run over slots and the view speaks of names. The two agree because no two records share
a slot, so a name with a record is known by its slot alone.
-/

namespace Thumbnails

namespace Store

/-- A store holds what a view says. -/
structure Represents (store : Store) (view : StoreView) : Prop where
  wellFormed : view.WellFormed
  load : store.load.Spells (view.load.map RecordId.slot)
  recency : store.recency.Spells (view.recency.map RecordId.slot)
  boundary : store.boundary = view.pending.head?.map RecordId.slot
  records : ∀ id, store.get? id = view.records id
  names : ∀ key, store.find? key = view.names key
  sorted : store.index.Sorted
  size : store.size = view.load.length
  queuedCount : store.queuedCount = view.count .queued
  loadedCount : store.loadedCount = view.count .loaded
  free_nodup : store.free.Nodup
  free_unused : ∀ slot ∈ store.free,
    slot < store.slots.size ∧ (store.slots.get slot).record = none

variable {store : Store} {view : StoreView} {id other : RecordId} {record old new : Record}

/-- Where the slot of a name gets another record, or none, nothing changes for other names. -/
theorem get?_of_set {changed : Store} {generation : UInt32} {new : Option Record}
    (current : (store.slots.get id.slot).generation = id.generation)
    (slotsEq : changed.slots = store.slots.set id.slot ⟨generation, new⟩)
    (kept : generation = id.generation ∨ new = none) (other : RecordId) :
    changed.get? other = if other = id then new else store.get? other := by
  simp only [get?, slotsEq, Table.get_set]
  by_cases sameSlot : other.slot = id.slot
  · by_cases same : other = id
    · subst same
      rcases kept with rfl | rfl <;> simp
    · have stale : id.generation ≠ other.generation := by
        intro equal
        apply same
        rcases id with ⟨slot, idGeneration⟩
        rcases other with ⟨otherSlot, otherGeneration⟩
        simp_all
      rcases kept with rfl | rfl <;> simp [sameSlot, same, current, stale]
  · have different : other ≠ id := fun equal => sameSlot (by rw [equal])
    simp [sameSlot, different]

theorem countIn_eq (store : Store) (status : RecordStatus) :
    store.countIn status =
      { store with
        queuedCount := store.queuedCount + if status = .queued then 1 else 0
        loadedCount := store.loadedCount + if status = .loaded then 1 else 0 } := by
  cases status <;> rfl

theorem countOut_eq (store : Store) (status : RecordStatus) :
    store.countOut status =
      { store with
        queuedCount := store.queuedCount - if status = .queued then 1 else 0
        loadedCount := store.loadedCount - if status = .loaded then 1 else 0 } := by
  cases status <;> rfl

theorem remove_snd (found : store.get? id = some record) :
    (store.remove id).2 =
      { slots := store.slots.set id.slot ⟨id.generation + 1, none⟩
        free := id.slot :: store.free
        index := store.index.erase record.key
        load := store.load.unlink id.slot
        recency := store.recency.unlink id.slot
        boundary :=
          if store.boundary = some id.slot then store.recency.next (some id.slot)
          else store.boundary
        queuedCount := store.queuedCount - if record.status = .queued then 1 else 0
        loadedCount := store.loadedCount - if record.status = .loaded then 1 else 0 } := by
  rw [Store.remove, found]
  exact countOut_eq _ _

namespace Represents

theorem idAt_slot (represents : store.Represents view) (present : view.records id = some record) :
    store.idAt id.slot = id := by
  rw [← represents.records, get?_eq_some_iff] at present
  rw [idAt, present.1]

theorem recordAt?_slot (represents : store.Represents view)
    (present : view.records id = some record) : store.recordAt? id.slot = some record := by
  rw [← represents.records, get?_eq_some_iff] at present
  exact present.2

theorem eq_of_slot_eq (represents : store.Represents view) (left : view.records id = some old)
    (right : view.records other = some new) (slotEq : id.slot = other.slot) : id = other := by
  rw [← represents.idAt_slot left, ← represents.idAt_slot right, slotEq]

/-- No name stands for a record in an unused slot. -/
theorem records_eq_none_of_unused (represents : store.Represents view)
    (unused : (store.slots.get id.slot).record = none) : view.records id = none := by
  rw [← represents.records, get?]
  split
  · exact unused
  · rfl

theorem idAt_map_slot (represents : store.Represents view) {ids : List RecordId}
    (live : ∀ id ∈ ids, (view.records id).isSome) :
    (ids.map RecordId.slot).map store.idAt = ids := by
  rw [List.map_map]
  conv_rhs => rw [← List.map_id ids]
  apply List.map_congr_left
  intro id idMem
  rcases Option.isSome_iff_exists.mp (live id idMem) with ⟨record, present⟩
  exact represents.idAt_slot present

theorem loadOrder_eq (represents : store.Represents view) : store.loadOrder = view.load := by
  rw [loadOrder, represents.load.toList_eq]
  exact represents.idAt_map_slot fun id idMem => (represents.wellFormed.mem_load id).mp idMem

theorem recencyOrder_eq (represents : store.Represents view) :
    store.recencyOrder = view.recency := by
  rw [recencyOrder, represents.recency.toList_eq]
  exact represents.idAt_map_slot fun id idMem => (represents.wellFormed.mem_recency id).mp idMem

theorem idAt_head?_slot (represents : store.Represents view) {ids : List RecordId}
    (live : ∀ id ∈ ids, (view.records id).isSome) :
    (ids.head?.map RecordId.slot).map store.idAt = ids.head? := by
  rw [← List.head?_map, ← List.head?_map, represents.idAt_map_slot live]

theorem boundary_idAt (represents : store.Represents view) :
    store.boundary.map store.idAt = view.pending.head? := by
  rw [represents.boundary]
  apply represents.idAt_head?_slot
  intro id idMem
  exact (represents.wellFormed.mem_recency id).mp (List.mem_append_right _ idMem)

theorem leastRecentlyUsed?_eq (represents : store.Represents view) :
    store.leastRecentlyUsed? =
      view.recency.head?.filter fun id => view.statusOf? id = some .loaded := by
  rw [leastRecentlyUsed?, represents.recency.head_eq, List.head?_map]
  rcases recencyEq : view.recency with _ | ⟨first, rest⟩
  · rfl
  · have firstMem : first ∈ view.recency := by simp [recencyEq]
    rcases represents.wellFormed.record_of_recency_mem firstMem with ⟨record, present⟩
    simp only [List.head?_cons, Option.map_some, represents.recordAt?_slot present,
      represents.idAt_slot present, Option.filter_some, StoreView.statusOf?_eq present]
    by_cases loaded : record.status = .loaded <;> simp [loaded]

theorem empty : Store.empty.Represents StoreView.empty := by
  refine ⟨StoreView.WellFormed.empty, Chain.spells_empty, Chain.spells_empty, rfl, ?_, ?_,
    KeyIndex.sorted_empty, rfl, rfl, rfl, List.nodup_nil, ?_⟩
  · intro id
    simp only [get?, Store.empty, Table.get_empty]
    split <;> rfl
  · intro key
    rfl
  · intro slot slotMem
    simp [Store.empty] at slotMem

theorem get?_putRecord (represents : store.Represents view)
    (present : view.records id = some old) (new : Record) (other : RecordId) :
    (store.putRecord id.slot (some new)).get? other =
      if other = id then some new else store.get? other := by
  have ⟨generation, _⟩ := get?_eq_some_iff.mp ((represents.records id).trans present)
  exact get?_of_set generation rfl (.inl generation) other

theorem put (represents : store.Represents view) (present : view.records id = some old)
    (keyEq : new.key = old.key) {queuedCount loadedCount : Nat}
    (queued : queuedCount = (view.put id new).count .queued)
    (loaded : loadedCount = (view.put id new).count .loaded) :
    Represents { store.putRecord id.slot (some new) with queuedCount, loadedCount }
      (view.put id new) := by
  refine ⟨represents.wellFormed.put present keyEq, represents.load, represents.recency,
    represents.boundary, ?_, represents.names, represents.sorted, represents.size, queued, loaded,
    represents.free_nodup, ?_⟩
  · intro other
    rw [StoreView.records_put, ← represents.records]
    exact represents.get?_putRecord present new other
  · intro slot slotMem
    have ⟨inside, unused⟩ := represents.free_unused slot slotMem
    have used := represents.recordAt?_slot present
    have different : slot ≠ id.slot := by
      rintro rfl
      rw [recordAt?, unused] at used
      simp at used
    simp only [putRecord, Table.size_set, Table.get_set, if_neg different]
    exact ⟨Nat.lt_of_lt_of_le inside (Nat.le_max_left _ _), unused⟩

theorem update (represents : store.Represents view) (id : RecordId) {change : Record → Record}
    (keeps : ∀ record, (change record).key = record.key ∧ (change record).status = record.status) :
    (store.update id change).Represents (view.update id change) := by
  cases present : view.records id with
  | none => simpa [Store.update, StoreView.update, represents.records, present] using represents
  | some record =>
      rcases keeps record with ⟨keyEq, statusEq⟩
      have queued := StoreView.count_put represents.wellFormed present keyEq .queued
      have loaded := StoreView.count_put represents.wellFormed present keyEq .loaded
      rw [statusEq] at queued loaded
      rw [StoreView.update_eq present, Store.update, represents.records, present]
      apply represents.put present keyEq
      · have := represents.queuedCount
        omega
      · have := represents.loadedCount
        omega

theorem setStatus (represents : store.Represents view) (id : RecordId) (status : RecordStatus) :
    (store.setStatus id status).Represents (view.setStatus id status) := by
  cases present : view.records id with
  | none =>
      simpa [Store.setStatus, StoreView.setStatus, StoreView.update, represents.records, present]
        using represents
  | some record =>
      have keyEq : { record with status }.key = record.key := rfl
      have queued := StoreView.count_put represents.wellFormed present keyEq .queued
      have loaded := StoreView.count_put represents.wellFormed present keyEq .loaded
      have queuedLe := represents.wellFormed.le_count present .queued
      have loadedLe := represents.wellFormed.le_count present .loaded
      rw [← represents.queuedCount] at queued queuedLe
      rw [← represents.loadedCount] at loaded loadedLe
      rw [StoreView.setStatus_eq present, Store.setStatus, represents.records, present]
      simp only at queued loaded ⊢
      split
      · rename_i same
        rw [same] at queued loaded
        apply represents.put present keyEq
        · omega
        · omega
      · rw [countIn_eq, countOut_eq]
        apply represents.put present keyEq
        · change store.queuedCount - _ + _ = _
          omega
        · change store.loadedCount - _ + _ = _
          omega

/-- The chain around a record that it runs through. -/
theorem spells_around {chain : Chain} {ids : List RecordId}
    (spells : chain.Spells (ids.map RecordId.slot)) (idMem : id ∈ ids) :
    ∃ front back, ids = front ++ id :: back ∧ ids.erase id = front ++ back ∧
      chain.Spells (front.map RecordId.slot ++ id.slot :: back.map RecordId.slot) := by
  rcases List.exists_erase_eq idMem with ⟨front, back, _, idsEq, eraseEq⟩
  refine ⟨front, back, idsEq, eraseEq, ?_⟩
  simpa [idsEq] using spells

theorem reorderLoad (represents : store.Represents view) {load : List RecordId} {chain : Chain}
    (perm : load.Perm view.load) (spells : chain.Spells (load.map RecordId.slot)) :
    Represents { store with load := chain } { view with load } := by
  refine ⟨represents.wellFormed.rearrange perm (List.Perm.refl _), spells, represents.recency,
    represents.boundary, represents.records, represents.names, represents.sorted, ?_, ?_, ?_,
    represents.free_nodup, represents.free_unused⟩
  · change store.size = load.length
    rw [perm.length_eq]
    exact represents.size
  · rw [StoreView.count_eq_of_load_perm perm]
    exact represents.queuedCount
  · rw [StoreView.count_eq_of_load_perm perm]
    exact represents.loadedCount

theorem reorderRecency (represents : store.Represents view) {settled pending : List RecordId}
    {chain : Chain} {boundary : Option Nat} (perm : (settled ++ pending).Perm view.recency)
    (spells : chain.Spells ((settled ++ pending).map RecordId.slot))
    (boundaryEq : boundary = pending.head?.map RecordId.slot) :
    Represents { store with recency := chain, boundary } { view with settled, pending } :=
  ⟨represents.wellFormed.rearrange (List.Perm.refl _) perm, represents.load, spells, boundaryEq,
    represents.records, represents.names, represents.sorted, represents.size,
    represents.queuedCount, represents.loadedCount, represents.free_nodup, represents.free_unused⟩

theorem moveToLoadFront (represents : store.Represents view) (id : RecordId) :
    (store.moveToLoadFront id).Represents (view.moveToLoadFront id) := by
  cases present : view.records id with
  | none =>
      simpa [Store.moveToLoadFront, StoreView.moveToLoadFront, represents.records, present]
        using represents
  | some record =>
      rcases spells_around represents.load (represents.wellFormed.load_mem present) with
        ⟨front, back, loadEq, eraseEq, spells⟩
      rw [StoreView.moveToLoadFront_eq present, Store.moveToLoadFront, represents.records, present,
        eraseEq]
      simp only
      split
      · rename_i atHead
        rw [spells.head_eq] at atHead
        rcases front with _ | ⟨first, front⟩
        · have unchanged : id :: ([] ++ back) = view.load := loadEq.symm
          rw [unchanged]
          exact represents
        · have different := (List.nodup_cons.mp spells.nodup).1
          simp only [List.map_cons, List.cons_append, List.head?_cons, Option.some.injEq] at atHead
          simp [atHead] at different
      · have head : (store.load.unlink id.slot).head =
            ((front ++ back).map RecordId.slot).head? := by
          rw [spells.unlink.head_eq, List.map_append]
        rw [head]
        apply represents.reorderLoad
        · rw [loadEq]
          exact List.perm_middle.symm
        · have others : front.map RecordId.slot ++ back.map RecordId.slot =
              [] ++ (front ++ back).map RecordId.slot := by simp
          exact spells.relink others

theorem moveToLoadBack (represents : store.Represents view) (id : RecordId) :
    (store.moveToLoadBack id).Represents (view.moveToLoadBack id) := by
  cases present : view.records id with
  | none =>
      simpa [Store.moveToLoadBack, StoreView.moveToLoadBack, represents.records, present]
        using represents
  | some record =>
      rcases spells_around represents.load (represents.wellFormed.load_mem present) with
        ⟨front, back, loadEq, eraseEq, spells⟩
      rw [StoreView.moveToLoadBack_eq present, Store.moveToLoadBack, represents.records, present,
        eraseEq]
      simp only
      split
      · rename_i atTail
        rw [spells.tail_eq] at atTail
        rcases List.eq_nil_or_concat' back with rfl | ⟨before, last, rfl⟩
        · have unchanged : front ++ [] ++ [id] = view.load := by simp [loadEq]
          rw [unchanged]
          exact represents
        · have different := (List.nodup_cons.mp (List.nodup_middle.mp spells.nodup)).1
          have ends : (front.map RecordId.slot ++
              id.slot :: (before ++ [last]).map RecordId.slot).getLast? = some last.slot := by
            simp [List.getLast?_cons]
          rw [ends, Option.some.injEq] at atTail
          simp [atTail] at different
      · apply represents.reorderLoad
        · rw [loadEq]
          exact (List.perm_append_singleton id (front ++ back)).trans List.perm_middle.symm
        · have others : front.map RecordId.slot ++ back.map RecordId.slot =
              (front ++ back).map RecordId.slot ++ [] := by simp
          simpa using spells.relink others

/-- A record is the boundary exactly if it comes first behind it. -/
theorem boundary_eq_iff (represents : store.Represents view)
    (present : view.records id = some record) :
    store.boundary = some id.slot ↔ ∃ rest, view.pending = id :: rest := by
  rw [represents.boundary]
  constructor
  · intro atBoundary
    rcases pendingEq : view.pending with _ | ⟨first, rest⟩
    · simp [pendingEq] at atBoundary
    · simp only [pendingEq, List.head?_cons, Option.map_some, Option.some.injEq] at atBoundary
      have firstMem : first ∈ view.recency := by simp [StoreView.recency, pendingEq]
      rcases represents.wellFormed.record_of_recency_mem firstMem with ⟨found, foundEq⟩
      rw [represents.eq_of_slot_eq foundEq present atBoundary]
      exact ⟨rest, rfl⟩
  · rintro ⟨rest, pendingEq⟩
    simp [pendingEq]

/-- The boundary passes to the next record behind it. -/
theorem next_boundary (represents : store.Represents view) {rest : List RecordId}
    (pendingEq : view.pending = id :: rest) :
    store.recency.next (some id.slot) = rest.head?.map RecordId.slot := by
  have spells : store.recency.Spells
      (view.settled.map RecordId.slot ++ id.slot :: rest.map RecordId.slot) := by
    simpa [StoreView.recency, pendingEq] using represents.recency
  rw [spells.next_some, List.head?_map]

/-- Without a record that is not first behind it, the boundary is where it was. -/
theorem boundary_eq_erase (represents : store.Represents view)
    (notBoundary : store.boundary ≠ some id.slot) :
    store.boundary = (view.pending.erase id).head?.map RecordId.slot := by
  rw [represents.boundary] at notBoundary ⊢
  rcases pendingEq : view.pending with _ | ⟨first, rest⟩
  · rfl
  · have different : first ≠ id := by
      rintro rfl
      simp [pendingEq] at notBoundary
    rw [List.erase_cons_tail (by simpa using different)]
    rfl

theorem moveToLoadedTail (represents : store.Represents view) (id : RecordId) :
    (store.moveToLoadedTail id).Represents (view.moveToLoadedTail id) := by
  have wellFormed := represents.wellFormed
  cases present : view.records id with
  | none =>
      simpa [Store.moveToLoadedTail, StoreView.moveToLoadedTail, represents.records, present]
        using represents
  | some record =>
      rw [StoreView.moveToLoadedTail_eq present, Store.moveToLoadedTail, represents.records,
        present]
      simp only
      have perm := wellFormed.recency_perm present
      split
      · rename_i atBoundary
        rcases (represents.boundary_eq_iff present).mp atBoundary with ⟨rest, pendingEq⟩
        have inPending : id ∈ view.pending := by simp [pendingEq]
        have notSettled := wellFormed.not_mem_settled_of_mem_pending inPending
        have settledEq := List.erase_of_not_mem notSettled
        have restEq : view.pending.erase id = rest := by simp [pendingEq]
        apply represents.reorderRecency perm
        · rw [settledEq, restEq]
          simpa [StoreView.recency, pendingEq] using represents.recency
        · rw [restEq]
          exact represents.next_boundary pendingEq
      · rename_i notBoundary
        have boundaryEq := represents.boundary_eq_erase notBoundary
        apply represents.reorderRecency perm
        · rw [boundaryEq, ← List.head?_map]
          rcases List.mem_append.mp (wellFormed.recency_mem present) with inSettled | inPending
          · have notPending := wellFormed.not_mem_pending_of_mem_settled inSettled
            rcases List.exists_erase_eq inSettled with ⟨front, back, _, settledEq, eraseEq⟩
            have spells : store.recency.Spells (front.map RecordId.slot ++
                id.slot :: (back ++ view.pending).map RecordId.slot) := by
              simpa [StoreView.recency, settledEq] using represents.recency
            have others : front.map RecordId.slot ++ (back ++ view.pending).map RecordId.slot =
                (front ++ back).map RecordId.slot ++ view.pending.map RecordId.slot := by simp
            rw [eraseEq, List.erase_of_not_mem notPending]
            simpa using spells.relink others
          · have notSettled := wellFormed.not_mem_settled_of_mem_pending inPending
            rcases List.exists_erase_eq inPending with ⟨front, back, _, pendingEq, eraseEq⟩
            have spells : store.recency.Spells ((view.settled ++ front).map RecordId.slot ++
                id.slot :: back.map RecordId.slot) := by
              simpa [StoreView.recency, pendingEq] using represents.recency
            have others : (view.settled ++ front).map RecordId.slot ++ back.map RecordId.slot =
                view.settled.map RecordId.slot ++ (front ++ back).map RecordId.slot := by simp
            rw [eraseEq, List.erase_of_not_mem notSettled]
            simpa using spells.relink others
        · exact boundaryEq

theorem spare (represents : store.Represents view) : store.Spare :=
  ⟨represents.free_nodup, fun slot slotMem => (represents.free_unused slot slotMem).2⟩

theorem takeSlot_unused (represents : store.Represents view) :
    (store.slots.get store.takeSlot.1).record = none :=
  represents.spare.takeSlot_unused

/-- An insertion answers a name that stands for nothing yet. -/
theorem records_insert_fst (represents : store.Represents view) (record : Record) :
    view.records (store.insert record).1 = none :=
  represents.records_eq_none_of_unused represents.takeSlot_unused

theorem takeSlot_not_mem (represents : store.Represents view) {ids : List RecordId}
    (live : ∀ id ∈ ids, (view.records id).isSome) :
    store.takeSlot.1 ∉ ids.map RecordId.slot := by
  intro slotMem
  rcases List.mem_map.mp slotMem with ⟨id, idMem, slotEq⟩
  have unused := represents.takeSlot_unused
  rw [← slotEq] at unused
  have dead := represents.records_eq_none_of_unused unused
  simpa [dead] using live id idMem

theorem get?_insert (store : Store) (record : Record) (other : RecordId) :
    (store.insert record).2.get? other =
      if other = (store.insert record).1 then some record else store.get? other := by
  apply get?_of_set rfl _ (.inl rfl)
  simp only [Store.insert, countIn_eq]
  rfl

theorem insert (represents : store.Represents view) (absent : view.names record.key = none) :
    (store.insert record).2.Represents (view.insert (store.insert record).1 record) := by
  have wellFormed := represents.wellFormed
  have fresh := represents.records_insert_fst record
  refine ⟨wellFormed.insert fresh absent, ?_, ?_, ?_, ?_, ?_, ?_, ?_, ?_, ?_, ?_, ?_⟩
  · have whole : store.load.Spells ([] ++ view.load.map RecordId.slot) := represents.load
    have linked := whole.linkBefore (represents.takeSlot_not_mem fun id idMem =>
      (wellFormed.mem_load id).mp idMem)
    rw [← represents.load.head_eq] at linked
    simpa [Store.insert, countIn_eq, StoreView.insert, idAt] using linked
  · have whole : store.recency.Spells (view.recency.map RecordId.slot ++ []) := by
      simpa using represents.recency
    have notMem := represents.takeSlot_not_mem fun id idMem => (wellFormed.mem_recency id).mp idMem
    have linked := whole.linkBefore (by simpa using notMem)
    simpa [Store.insert, countIn_eq, StoreView.insert, StoreView.recency, idAt] using linked
  · have boundary := represents.boundary
    rcases pendingEq : view.pending with _ | ⟨first, rest⟩ <;>
      simp [Store.insert, countIn_eq, StoreView.insert, idAt, boundary, pendingEq]
  · intro other
    simp only [get?_insert, represents.records, StoreView.insert, Function.update_apply]
  · intro key
    simp only [StoreView.insert, Function.update_apply, ← represents.names]
    simpa [Store.insert, countIn_eq, find?] using KeyIndex.find?_insert store.index
  · simpa [Store.insert, countIn_eq] using represents.sorted.insert
  · have indexAbsent : store.index.find? record.key = none := by
      rw [← absent]
      exact represents.names record.key
    have sizeEq := represents.size
    rw [Store.size] at sizeEq
    simp [Store.insert, countIn_eq, Store.size, KeyIndex.size_insert indexAbsent, sizeEq,
      StoreView.insert]
  · rw [StoreView.count_insert wellFormed fresh, ← represents.queuedCount]
    simp [Store.insert, countIn_eq, putRecord]
  · rw [StoreView.count_insert wellFormed fresh, ← represents.loadedCount]
    simp [Store.insert, countIn_eq, putRecord]
  · simpa [Store.insert, countIn_eq] using represents.spare.takeSlot_free_nodup
  · intro slot slotMem
    have slotMem' : slot ∈ store.takeSlot.2 := by simpa [Store.insert, countIn_eq] using slotMem
    rcases represents.spare.mem_free_of_mem_takeSlot slotMem' with ⟨oldMem, different⟩
    rcases represents.free_unused slot oldMem with ⟨inside, unused⟩
    simp only [Store.insert, countIn_eq, putRecord, Table.size_set, Table.get_set,
      if_neg different]
    exact ⟨Nat.lt_of_lt_of_le inside (Nat.le_max_left _ _), unused⟩

theorem get?_remove (represents : store.Represents view) (present : view.records id = some record)
    (other : RecordId) :
    (store.remove id).2.get? other = if other = id then none else store.get? other := by
  have found := (represents.records id).trans present
  have ⟨generation, _⟩ := get?_eq_some_iff.mp found
  rw [remove_snd found]
  exact get?_of_set generation rfl (.inr rfl) other

theorem remove_fst (represents : store.Represents view) (id : RecordId) :
    (store.remove id).1 = view.records id := by
  cases present : view.records id with
  | none => simp [Store.remove, represents.records, present]
  | some record => simp [Store.remove, represents.records, present]

theorem remove (represents : store.Represents view) (id : RecordId) :
    (store.remove id).2.Represents (view.remove id) := by
  have wellFormed := represents.wellFormed
  have removedWellFormed := wellFormed.remove id
  cases present : view.records id with
  | none => simpa [Store.remove, StoreView.remove, represents.records, present] using represents
  | some record =>
      have found := (represents.records id).trans present
      have queued := StoreView.count_remove wellFormed present .queued
      have loaded := StoreView.count_remove wellFormed present .loaded
      rw [← represents.queuedCount] at queued
      rw [← represents.loadedCount] at loaded
      have records := represents.get?_remove present
      rw [remove_snd found] at records ⊢
      rw [StoreView.remove_eq present] at removedWellFormed queued loaded ⊢
      refine ⟨removedWellFormed, ?_, ?_, ?_, ?_, ?_, ?_, ?_, ?_, ?_, ?_, ?_⟩
      · rcases spells_around represents.load (wellFormed.load_mem present) with
          ⟨front, back, _, eraseEq, spells⟩
        simpa [eraseEq] using spells.unlink
      · rcases spells_around represents.recency (wellFormed.recency_mem present) with
          ⟨front, back, _, eraseEq, spells⟩
        change (store.recency.unlink id.slot).Spells
          ((view.settled.erase id ++ view.pending.erase id).map RecordId.slot)
        rw [wellFormed.erase_recency, eraseEq]
        simpa using spells.unlink
      · simp only
        split
        · rename_i atBoundary
          rcases (represents.boundary_eq_iff present).mp atBoundary with ⟨rest, pendingEq⟩
          rw [represents.next_boundary pendingEq]
          simp [pendingEq]
        · rename_i notBoundary
          exact represents.boundary_eq_erase notBoundary
      · intro other
        simp only [records, Function.update_apply, represents.records]
      · intro key
        simp only [Function.update_apply, ← represents.names]
        exact KeyIndex.find?_erase represents.sorted
      · exact represents.sorted.erase
      · have indexed : store.index.find? record.key = some id :=
          (represents.names record.key).trans (wellFormed.names_eq present)
        have sizeEq := represents.size
        have lengthEq := List.length_erase_of_mem (wellFormed.load_mem present)
        have shrunk := KeyIndex.size_erase indexed
        rw [Store.size] at sizeEq
        change (store.index.erase record.key).size = (view.load.erase id).length
        omega
      · change store.queuedCount - _ = _
        omega
      · change store.loadedCount - _ = _
        omega
      · apply List.nodup_cons.mpr
        refine ⟨?_, represents.free_nodup⟩
        intro slotMem
        have used := represents.recordAt?_slot present
        rw [recordAt?, (represents.free_unused id.slot slotMem).2] at used
        simp at used
      · intro slot slotMem
        simp only [Table.size_set, Table.get_set]
        rcases List.mem_cons.mp slotMem with rfl | oldMem
        · exact ⟨Nat.lt_of_lt_of_le (Nat.lt_succ_self _) (Nat.le_max_right _ _), by simp⟩
        · rcases represents.free_unused slot oldMem with ⟨inside, unused⟩
          refine ⟨Nat.lt_of_lt_of_le inside (Nat.le_max_left _ _), ?_⟩
          split
          · rfl
          · exact unused

end Represents

end Store

end Thumbnails
