import Thumbnails.Proofs.Cache.Recreation
import Thumbnails.Proofs.Cache.Transitions

/-!
# Completion

The result of a load takes effect as a whole or not at all. It is applied while the cache runs and
the record is in progress, and it can be applied only once. Room is made for a thumbnail before the
record is found again and moved, and the record is still there then, because what makes room is
loaded. `CacheState.completes_after` says what is left when a result was applied: the record itself
has settled, at most one other is gone, and the rest is as it was and in the same order.
-/

namespace Thumbnails

namespace StoreView

/-- All but some names stand for what they stood for, and in the same order. -/
structure Spares (view next : StoreView) (touched : List RecordId) : Prop where
  records : ∀ id, id ∉ touched → next.records id = view.records id
  load : next.load.filter (· ∉ touched) = view.load.filter (· ∉ touched)
  recency : next.recency.filter (· ∉ touched) = view.recency.filter (· ∉ touched)

variable {view middle next : StoreView} {id : RecordId} {record : Record}
  {ids touched more : List RecordId}

theorem filter_not_mem_erase (nodup : ids.Nodup) (idMem : id ∈ touched) :
    (ids.erase id).filter (· ∉ touched) = ids.filter (· ∉ touched) := by
  rw [nodup.erase_eq_filter, List.filter_filter]
  apply List.filter_congr
  intro other _
  by_cases same : other = id <;> simp [same, idMem]

namespace Spares

theorem trans (first : view.Spares middle touched) (second : middle.Spares next touched) :
    view.Spares next touched := by
  refine ⟨?_, second.load.trans first.load, second.recency.trans first.recency⟩
  intro id untouched
  rw [second.records id untouched, first.records id untouched]

theorem filter_mono {before after : List RecordId} (subset : touched ⊆ more)
    (same : after.filter (· ∉ touched) = before.filter (· ∉ touched)) :
    after.filter (· ∉ more) = before.filter (· ∉ more) := by
  have twice : ∀ ids : List RecordId,
      ids.filter (· ∉ more) = (ids.filter (· ∉ touched)).filter (· ∉ more) := by
    intro ids
    rw [List.filter_filter]
    apply List.filter_congr
    intro other _
    by_cases otherMem : other ∈ more
    · simp [otherMem]
    · have untouched : other ∉ touched := fun member => otherMem (subset member)
      simp [otherMem, untouched]
  rw [twice after, twice before, same]

theorem mono (spares : view.Spares next touched) (subset : touched ⊆ more) :
    view.Spares next more := by
  refine ⟨?_, filter_mono subset spares.load, filter_mono subset spares.recency⟩
  intro id untouched
  exact spares.records id fun member => untouched (subset member)

theorem remove (wellFormed : view.WellFormed) (present : view.records id = some record) :
    view.Spares (view.remove id) [id] := by
  refine ⟨?_, ?_, ?_⟩
  · intro other different
    exact records_remove_of_ne fun same => different (List.mem_singleton.mpr same)
  · rw [load_remove present]
    exact filter_not_mem_erase wellFormed.load_nodup (List.mem_singleton_self id)
  · rw [recency_remove wellFormed present]
    exact filter_not_mem_erase wellFormed.recency_nodup (List.mem_singleton_self id)

theorem land (wellFormed : view.WellFormed) (id : RecordId) (record : Record) (pixmap : Image) :
    view.Spares (view.land id record pixmap) [id] := by
  refine ⟨?_, ?_, ?_⟩
  · intro other different
    rw [records_land, if_neg fun same => different (List.mem_singleton.mpr same)]
  · change (view.load.erase id ++ [id]).filter _ = _
    rw [List.filter_append, filter_not_mem_erase wellFormed.load_nodup (List.mem_singleton_self id)]
    simp
  · change (view.settled ++ [id] ++ view.pending.erase id).filter _ = _
    rw [List.filter_append, List.filter_append,
      filter_not_mem_erase wellFormed.pending_nodup (List.mem_singleton_self id), StoreView.recency]
    simp

theorem fail (wellFormed : view.WellFormed) (id : RecordId) (record : Record)
    (pixmap : Option Image) : view.Spares (view.fail id record pixmap) [id] := by
  refine ⟨?_, ?_, rfl⟩
  · intro other different
    rw [records_fail, if_neg fun same => different (List.mem_singleton.mpr same)]
  · change (view.load.erase id ++ [id]).filter _ = _
    rw [List.filter_append, filter_not_mem_erase wellFormed.load_nodup (List.mem_singleton_self id)]
    simp

end Spares

end StoreView

namespace CacheState

/-- The record that has to go before one more is loaded. -/
def displaced? (state : CacheState) : Option RecordId :=
  if state.store.loadedCount < state.capacity then none else state.store.leastRecentlyUsed?

/-- All but some records are as they were, each under its name and its key, and their order is the
same. -/
structure Spares (state after : CacheState) (touched : List RecordId) : Prop where
  records : ∀ id, id ∉ touched → after.store.get? id = state.store.get? id
  names : ∀ key id, id ∉ touched →
    (after.store.find? key = some id ↔ state.store.find? key = some id)
  loadOrder : after.store.loadOrder.filter (· ∉ touched) =
    state.store.loadOrder.filter (· ∉ touched)
  recencyOrder : after.store.recencyOrder.filter (· ∉ touched) =
    state.store.recencyOrder.filter (· ∉ touched)

/-- A record was loaded, and the one used least recently made room for it if there was none. -/
structure Lands (state after : CacheState) (id : RecordId) (pixmap : Image) : Prop where
  record : ∃ record, state.store.get? id = some record ∧
    after.store.get? id = some (record.landed pixmap)
  displaced : ∀ victim, state.displaced? = some victim → victim ≠ id ∧
    state.store.statusOf? victim = some .loaded ∧ after.store.get? victim = none
  loadOrder_last : after.store.loadOrder.getLast? = some id
  /-- It is the last of the loaded ones, and all of them come before the others. -/
  recencyOrder_last : ∃ loaded unloaded, after.store.recencyOrder = loaded ++ id :: unloaded ∧
    (∀ other ∈ loaded, after.store.statusOf? other = some .loaded) ∧
    ∀ other ∈ unloaded, after.store.statusOf? other ≠ some .loaded
  spares : state.Spares after (id :: state.displaced?.toList)

/-- A record that was asked for too long ago is gone. -/
structure Drops (state after : CacheState) (id : RecordId) : Prop where
  record : after.store.get? id = none
  spares : state.Spares after [id]

/-- A load came to nothing, and nothing made room for it. -/
structure Fails (state after : CacheState) (id : RecordId) (pixmap : Option Image) : Prop where
  record : ∃ record, state.store.get? id = some record ∧
    after.store.get? id = some (record.failed pixmap)
  loadOrder_last : after.store.loadOrder.getLast? = some id
  recencyOrder : after.store.recencyOrder = state.store.recencyOrder
  spares : state.Spares after [id]

/-- What becomes of a state when a result comes in. -/
structure Completes (state : CacheState) (result : LoadResult) (completion : Option Completion)
    (after : CacheState) : Prop where
  applied : completion.isSome ↔
    state.shuttingDown = false ∧ state.store.statusOf? result.id = some .inProgress
  dropped : completion = none → after = state
  /-- No second result of the same load is applied. -/
  once : completion.isSome → ∀ status pixmap,
    after.complete ⟨result.id, status, pixmap⟩ = (none, after)
  landed : completion.isSome → ∀ pixmap, result.status = .loaded → result.pixmap = some pixmap →
    state.Lands after result.id pixmap
  expired : completion.isSome → result.status = .requestExpired → state.Drops after result.id
  failed : completion.isSome →
    result.status = .loadFailed ∨ result.status = .loaded ∧ result.pixmap = none →
      state.Fails after result.id result.pixmap
  rest : after = { state with store := after.store }

variable {state after : CacheState} {view next : StoreView} {result : LoadResult} {id : RecordId}
  {record : Record} {pixmap : Image} {touched : List RecordId}

/-- Nothing is done about a result that the cache does not wait for. -/
theorem complete_of_unawaited
    (unawaited : state.shuttingDown = true ∨ state.store.statusOf? result.id ≠ some .inProgress) :
    state.complete result = (none, state) := by
  rw [complete]
  split
  · rfl
  · rename_i running
    have settled := unawaited.resolve_left running
    rw [Store.statusOf?] at settled
    cases found : state.store.get? result.id with
    | none => rfl
    | some record =>
        rw [found, Option.map_some, ne_eq, Option.some.injEq] at settled
        simp only [if_pos settled]

namespace Tidy

/-- Either there is room for one more, or the record used least recently makes it. -/
theorem makeRoom_cases (tidy : state.Tidy view) :
    state.displaced? = none ∧ view.makeRoom state.capacity = view ∨
      ∃ victim rest, state.displaced? = some victim ∧ view.settled = victim :: rest ∧
        view.makeRoom state.capacity = view.remove victim := by
  rw [displaced?, StoreView.makeRoom, tidy.loadedCount_eq]
  split
  · exact .inl ⟨rfl, rfl⟩
  · rename_i crowded
    cases settledEq : view.settled with
    | nil =>
        rw [settledEq] at crowded
        exact absurd tidy.capacity_pos crowded
    | cons victim rest => exact .inr ⟨victim, rest, (tidy.victim settledEq).1, rfl, rfl⟩

theorem spares (tidy : state.Tidy view) (nextTidy : after.Tidy next)
    (spares : view.Spares next touched) : state.Spares after touched := by
  refine ⟨?_, ?_, ?_, ?_⟩
  · intro id untouched
    rw [nextTidy.represents.records, tidy.represents.records, spares.records id untouched]
  · intro key id untouched
    rw [nextTidy.represents.names, tidy.represents.names, nextTidy.wellFormed.names_iff,
      tidy.wellFormed.names_iff, spares.records id untouched]
  · rw [nextTidy.represents.loadOrder_eq, tidy.represents.loadOrder_eq, spares.load]
  · rw [nextTidy.represents.recencyOrder_eq, tidy.represents.recencyOrder_eq, spares.recency]

theorem lands (tidy : state.Tidy view)
    (nextTidy : after.Tidy ((view.makeRoom state.capacity).land id record pixmap))
    (present : view.records id = some record) (inProgress : record.status = .inProgress) :
    state.Lands after id pixmap := by
  have roomyWellFormed := tidy.wellFormed.makeRoom state.capacity
  have roomyOrderly := tidy.orderly.makeRoom tidy.wellFormed state.capacity
  have unsettled : id ∉ view.settled :=
    tidy.orderly.not_mem_settled present (by simp [inProgress])
  have landed := StoreView.records_land (view.makeRoom state.capacity) id id record pixmap
  refine ⟨⟨record, ?_, ?_⟩, ?_, ?_, ?_, tidy.spares nextTidy ?_⟩
  · rw [tidy.represents.records, present]
  · rw [nextTidy.represents.records, landed, if_pos rfl]
  · intro victim displaced
    rcases tidy.makeRoom_cases with ⟨roomy, _⟩ | ⟨other, rest, crowded, settledEq, removed⟩
    · cases roomy.symm.trans displaced
    · cases crowded.symm.trans displaced
      have victimMem : victim ∈ view.settled := by simp [settledEq]
      have different : victim ≠ id := fun same => unsettled (same ▸ victimMem)
      refine ⟨different, ?_, ?_⟩
      · rw [tidy.statusOf?_eq, tidy.orderly.settled_loaded victim victimMem]
      · rw [nextTidy.represents.records, StoreView.records_land, if_neg different, removed,
          StoreView.records_remove, if_pos rfl]
  · rw [nextTidy.represents.loadOrder_eq]
    exact List.getLast?_concat
  · refine ⟨(view.makeRoom state.capacity).settled,
      (view.makeRoom state.capacity).pending.erase id, ?_, ?_, ?_⟩
    · rw [nextTidy.represents.recencyOrder_eq, StoreView.recency, StoreView.land,
        List.append_assoc, List.singleton_append]
    · intro other otherMem
      rw [nextTidy.statusOf?_eq]
      exact nextTidy.orderly.settled_loaded other (List.mem_append_left _ otherMem)
    · intro other otherMem
      rw [nextTidy.statusOf?_eq]
      exact nextTidy.orderly.pending_unloaded other otherMem
  · have own := StoreView.Spares.land roomyWellFormed id record pixmap
    have kept : [id] ⊆ id :: state.displaced?.toList := by simp
    rcases tidy.makeRoom_cases with ⟨_, unchanged⟩ | ⟨victim, rest, crowded, settledEq, removed⟩
    · rw [unchanged] at own ⊢
      exact own.mono kept
    · have victimMem : victim ∈ view.settled := by simp [settledEq]
      rcases tidy.wellFormed.record_of_settled_mem victimMem with ⟨gone, victimPresent⟩
      have evicted := StoreView.Spares.remove tidy.wellFormed victimPresent
      rw [← removed] at evicted
      exact (evicted.mono (by simp [crowded])).trans (own.mono kept)

theorem drops (tidy : state.Tidy view) (nextTidy : after.Tidy (view.remove id))
    (present : view.records id = some record) : state.Drops after id := by
  refine ⟨?_, tidy.spares nextTidy (.remove tidy.wellFormed present)⟩
  rw [nextTidy.represents.records, StoreView.records_remove, if_pos rfl]

theorem fails {pixmap : Option Image} (tidy : state.Tidy view)
    (nextTidy : after.Tidy (view.fail id record pixmap)) (present : view.records id = some record) :
    state.Fails after id pixmap := by
  refine ⟨⟨record, ?_, ?_⟩, ?_, ?_,
    tidy.spares nextTidy (.fail tidy.wellFormed id record pixmap)⟩
  · rw [tidy.represents.records, present]
  · rw [nextTidy.represents.records, StoreView.records_fail, if_pos rfl]
  · rw [nextTidy.represents.loadOrder_eq]
    exact List.getLast?_concat
  · rw [nextTidy.represents.recencyOrder_eq, tidy.represents.recencyOrder_eq]
    rfl

/-- A record whose result was applied is no longer in progress. -/
theorem unawaited_of_applied (tidy : state.Tidy view) (running : state.shuttingDown = false)
    (inProgress : state.store.statusOf? result.id = some .inProgress) :
    (state.complete result).2.store.statusOf? result.id ≠ some .inProgress := by
  have settled := tidy.settles result running inProgress
  change (state.complete result).2.store.statusOf? result.id = _ at settled
  rw [settled, LoadResult.finalStatus?]
  split <;> simp

theorem completes (tidy : state.Tidy view) (result : LoadResult) :
    state.Completes result (state.complete result).1 (state.complete result).2 := by
  have settled : state.shuttingDown = false →
      state.store.statusOf? result.id = some .inProgress →
        (state.complete result).2.store.statusOf? result.id ≠ some .inProgress :=
    tidy.unawaited_of_applied
  rcases tidy.perform (.complete result) with ⟨next, effect, nextTidy⟩
  change state.Effect view _ (.completed (state.complete result).1) (state.complete result).2
    next at effect
  change (state.complete result).2.Tidy next at nextTidy
  generalize (state.complete result).1 = completion at effect ⊢
  generalize (state.complete result).2 = after at effect nextTidy settled ⊢
  have once : state.shuttingDown = false → state.store.statusOf? result.id = some .inProgress →
      ∀ status pixmap, after.complete ⟨result.id, status, pixmap⟩ = (none, after) :=
    fun running inProgress _ _ => complete_of_unawaited (.inr (settled running inProgress))
  have awaited : ∀ {record}, view.records result.id = some record → record.status = .inProgress →
      state.store.statusOf? result.id = some .inProgress := by
    intro record present inProgress
    rw [tidy.statusOf?_eq, StoreView.statusOf?_eq present, inProgress]
  cases effect with
  | resultDropped dropped =>
      rw [← tidy.statusOf?_eq] at dropped
      refine ⟨?_, fun _ => rfl, nofun, nofun, nofun, nofun, rfl⟩
      simp only [Option.isSome_none, Bool.false_eq_true, false_iff, not_and]
      intro running
      exact dropped.resolve_left (by simp [running])
  | resultLanded running present inProgress =>
      have waiting := awaited present inProgress
      refine ⟨iff_of_true rfl ⟨running, waiting⟩, nofun, fun _ => once running waiting, ?_, nofun,
        ?_, rfl⟩
      · intro _ pixmap _ pixmapEq
        cases pixmapEq
        exact tidy.lands nextTidy present inProgress
      · rintro _ (failed | ⟨_, nothing⟩)
        · cases failed
        · cases nothing
  | resultExpired running present inProgress =>
      have waiting := awaited present inProgress
      refine ⟨iff_of_true rfl ⟨running, waiting⟩, nofun, fun _ => once running waiting, nofun, ?_,
        ?_, rfl⟩
      · intro _ _
        exact tidy.drops nextTidy present
      · rintro _ (failed | ⟨loaded, _⟩)
        · cases failed
        · cases loaded
  | resultFailed running present inProgress failed =>
      have waiting := awaited present inProgress
      refine ⟨iff_of_true rfl ⟨running, waiting⟩, nofun, fun _ => once running waiting, ?_, ?_, ?_,
        rfl⟩
      · rintro _ pixmap rfl rfl
        rcases failed with failed | ⟨_, nothing⟩
        · cases failed
        · cases nothing
      · rintro _ rfl
        rcases failed with failed | ⟨loaded, _⟩
        · cases failed
        · cases loaded
      · intro _ _
        exact tidy.fails nextTidy present

end Tidy

/-- Whatever result comes in after any calls, it is applied as a whole or not at all. -/
theorem completes_after (config : Config) (directory : Path) (calls : List CacheCall)
    (result : LoadResult) : ((new config directory).after calls).Completes result
      (((new config directory).after calls).complete result).1
      (((new config directory).after calls).complete result).2 := by
  rcases tidy_after config directory calls with ⟨view, tidy⟩
  exact tidy.completes result

end CacheState

end Thumbnails
