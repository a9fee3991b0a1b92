import Thumbnails.Proofs.Cache.Effect
import Thumbnails.Proofs.Cache.Expiry
import Thumbnails.Proofs.Store.Naming
import Thumbnails.Proofs.Store.Refinement

/-!
# Stale names

The loader may come back with a result for a record that has been taken away in the meantime. The
cache tells by the name of the record, although its slot may have been used again, and for the same
key. A call that is not a request fills no slot, so a generation goes up by one in a call that
vacates the slot, and in no other one.
-/

namespace Thumbnails

namespace CacheEvent

/-- Whether an event takes away the record of a name. -/
def removes (event : CacheEvent) (id : RecordId) : Bool :=
  (event.before.store.get? id).isSome && (event.after.store.get? id).isNone

def vacates (event : CacheEvent) (slot : Nat) : Bool :=
  event.before.store.vacates event.after.store slot

end CacheEvent

namespace CacheState

/-- A run in which the record of a name was made and taken away, without the generation of its slot
coming round since then. -/
def Stale (start : CacheState) (calls : List CacheCall) (id : RecordId) : Prop :=
  ∃ front issue since, start.history calls = front ++ issue :: since ∧ issue.creates id = true ∧
    (∃ event ∈ since, event.removes id = true) ∧
    since.countP (fun event => event.vacates id.slot) < UInt32.size

/-- What a run leaves of the names of records that are gone. -/
structure DropsStale (start : CacheState) (calls : List CacheCall) : Prop where
  lapses : ∀ id, start.Stale calls id → (start.after calls).store.Lacks id
  drops : ∀ id, start.Stale calls id → ∀ status pixmap,
    (start.after calls).complete ⟨id, status, pixmap⟩ = (none, start.after calls)

variable {state : CacheState} {id : RecordId}

theorem retains_lookup (state : CacheState) (key : ThumbnailKey) :
    state.store.Retains (state.lookup key).2.store := by
  rw [lookup]
  split
  · exact .refl _
  · rename_i id _
    split
    · exact .refl _
    · split
      · split <;> exact state.store.retains_moveToLoadedTail id
      · exact .refl _
      · exact .refl _
      · exact .refl _

theorem retains_peek (state : CacheState) (key : ThumbnailKey) :
    state.store.Retains (state.peek key).2.store := by
  rw [peek]
  split
  · exact .refl _
  · exact state.retains_lookup key

theorem retains_join (state : CacheState) (id : RecordId) (subscriber : SubscriberId) :
    state.store.Retains (state.join id subscriber).store := by
  have joined := state.store.retains_update id fun record =>
    { record with subscribers := record.subscribers ++ [subscriber] }
  simp only [join]
  split
  · exact .refl _
  · split
    · exact joined.trans (Store.retains_moveToLoadFront _ id)
    · exact joined

theorem fills_enqueue (state : CacheState) (key : ThumbnailKey) (generator : Generator)
    (subscriber : SubscriberId) :
    state.store.Fills (state.enqueue key generator subscriber).store := by
  rw [enqueue]
  exact Store.fills_insert state.store
    { Record.queued key generator state.clock with subscribers := [subscriber] }

/-- A request fills a slot at most. -/
theorem turn_request (state : CacheState) (key : ThumbnailKey) (generator : Generator)
    (subscriber : SubscriberId) :
    Store.Turn state.store (state.request key generator subscriber).2.2.store := by
  have looked := state.retains_lookup key
  rw [request]
  split
  · exact .kept (.refl _)
  · split
    · rename_i lookupEq
      rw [lookupEq] at looked
      exact .kept looked
    · split
      · rename_i id _
        rw [claimStart_eq]
        exact .kept (state.retains_join id subscriber)
      · simp only [claimStart_eq]
        exact .filled (state.fills_enqueue key generator subscriber)

theorem retains_nextJob (state : CacheState) : state.store.Retains state.nextJob.2.store := by
  rw [nextJob]
  split
  · exact .refl _
  · rename_i slot _
    split
    · exact .refl _
    · have taken := (state.store.retains_setStatus (state.store.idAt slot) .inProgress).trans
        (Store.retains_moveToLoadBack _ (state.store.idAt slot))
      simp only
      split
      · exact .refl _
      · split <;> exact taken

theorem thins_evictUpTo (state : CacheState) (rounds : Nat) :
    state.store.Thins (state.evictUpTo rounds).store := by
  induction rounds generalizing state with
  | zero => exact .refl _
  | succ rounds ih =>
      rw [evictUpTo]
      split
      · exact .refl _
      · split
        · exact .refl _
        · rename_i victim _
          have rest := ih { state with store := (state.store.remove victim).2 }
          exact (Store.Thins.of_remove state.store victim).trans rest

theorem thins_evictExcess (state : CacheState) : state.store.Thins state.evictExcess.store :=
  state.thins_evictUpTo _

theorem retains_finish (state : CacheState) (store : Store) (id : RecordId)
    (pixmap : Option Image) (status : LoadStatus) :
    store.Retains ({ state with store }.finish id pixmap status).2.store := by
  simp only [finish]
  split
  · exact .refl _
  · exact store.retains_update id _

theorem retains_fail (state : CacheState) (id : RecordId) (pixmap : Option Image) :
    state.store.Retains ({ state with
      store := (state.store.setStatus id .loadFailed).moveToLoadBack id }.finish id pixmap
        .loadFailed).2.store := by
  have failed := (state.store.retains_setStatus id .loadFailed).trans
    (Store.retains_moveToLoadBack _ id)
  exact failed.trans (state.retains_finish _ id pixmap .loadFailed)

theorem retains_land (state : CacheState) (id : RecordId) (pixmap : Image) :
    state.store.Retains ({ state with
      store := ((state.store.setStatus id .loaded).moveToLoadedTail id).moveToLoadBack id }.finish
        id (some pixmap) .loaded).2.store := by
  have landed := ((state.store.retains_setStatus id .loaded).trans
    (Store.retains_moveToLoadedTail _ id)).trans (Store.retains_moveToLoadBack _ id)
  exact landed.trans (state.retains_finish _ id (some pixmap) .loaded)

theorem thins_complete (state : CacheState) (result : LoadResult) :
    state.store.Thins (state.complete result).2.store := by
  rw [complete]
  split
  · exact .refl _
  · split
    · exact .refl _
    · split
      · exact .refl _
      · split
        · rename_i pixmap _ _
          have landed := Store.Thins.of_retains (state.evictExcess.retains_land result.id pixmap)
          dsimp only
          exact state.thins_evictExcess.trans landed
        · exact .of_remove state.store result.id
        · have failed := Store.Thins.of_retains (state.retains_fail result.id none)
          dsimp only
          exact failed
        · have failed := Store.Thins.of_retains (state.retains_fail result.id result.pixmap)
          dsimp only
          exact failed

theorem retains_expireQueued (state : CacheState) :
    state.store.Retains state.expireQueued.store := by
  rw [expireQueued_store]
  exact .refl _

theorem retains_changeDirectory (state : CacheState) (directory : Path) :
    state.store.Retains (state.changeDirectory directory).2.store := by
  rw [changeDirectory]
  split
  · exact .refl _
  · exact retains_expireQueued { state with directory }

theorem thins_forgetFinished (state : CacheState) (key : ThumbnailKey) :
    state.store.Thins (state.forgetFinished key).2.store := by
  rw [forgetFinished]
  split
  · exact .refl _
  · rename_i id _
    split
    · exact .refl _
    · split
      · exact .of_remove state.store id
      · exact .refl _

/-- A generation goes up by one in a call that vacates its slot, and in no other one. -/
theorem generation_perform (state : CacheState) (call : CacheCall) (slot : Nat) :
    (state.perform call).2.store.generationAt slot = state.store.generationAt slot +
      if CacheEvent.vacates ⟨state, call⟩ slot then 1 else 0 := by
  cases call with
  | request key generator subscriber =>
      exact (state.turn_request key generator subscriber).generation_eq slot
  | lookup key => exact (Store.Thins.of_retains (state.retains_lookup key)).generation slot
  | peek key => exact (Store.Thins.of_retains (state.retains_peek key)).generation slot
  | nextJob => exact (Store.Thins.of_retains state.retains_nextJob).generation slot
  | complete result => exact (state.thins_complete result).generation slot
  | changeDirectory directory =>
      exact (Store.Thins.of_retains (state.retains_changeDirectory directory)).generation slot
  | expireQueued => exact (Store.Thins.of_retains state.retains_expireQueued).generation slot
  | evictExcess => exact state.thins_evictExcess.generation slot
  | forgetFinished key => exact (state.thins_forgetFinished key).generation slot
  | loaderLost => exact (Store.Thins.refl state.store).generation slot
  | shutDown => exact (Store.Thins.refl state.store).generation slot

theorem generation_after (state : CacheState) (calls : List CacheCall) (slot : Nat) :
    (state.after calls).store.generationAt slot = state.store.generationAt slot +
      UInt32.ofNat ((state.history calls).countP fun event => event.vacates slot) := by
  induction calls generalizing state with
  | nil => exact (UInt32.add_zero _).symm
  | cons call calls ih =>
      change ((state.perform call).2.after calls).store.generationAt slot = _
      rw [ih, generation_perform, history, List.countP_cons, UInt32.add_assoc, UInt32.ofNat_add,
        UInt32.add_comm (UInt32.ofNat _)]
      split <;> rfl

/-- Without being vacated, a slot keeps the name of its record. -/
theorem vacates_of_removes {event : CacheEvent} (removes : event.removes id = true) :
    event.vacates id.slot = true := by
  rw [CacheEvent.removes, Bool.and_eq_true, Store.get?_isSome_iff] at removes
  rcases removes with ⟨⟨current, occupied⟩, gone⟩
  have generationEq := event.before.generation_perform event.call id.slot
  by_contra unvacated
  rw [Bool.not_eq_true] at unvacated
  have unvacatedHere : CacheEvent.vacates ⟨event.before, event.call⟩ id.slot = false := unvacated
  rw [unvacatedHere] at generationEq
  have stays : (event.after.store.get? id).isSome := by
    apply Store.get?_isSome_iff.mpr
    refine ⟨?_, ?_⟩
    · rw [← current]
      exact generationEq.trans (UInt32.add_zero _)
    · rw [CacheEvent.vacates, Store.vacates, occupied, Bool.true_and] at unvacated
      simpa using unvacated
  rw [Option.isNone_iff_eq_none] at gone
  simp [gone] at stays

theorem Stale.get?_eq_none {calls : List CacheCall} (stale : state.Stale calls id) :
    (state.after calls).store.get? id = none := by
  rcases stale with ⟨front, issue, since, historyEq, created, ⟨event, eventMem, removed⟩, bounded⟩
  rcases calls_of_history historyEq with ⟨earlier, later, _, _, sinceEq, afterEq⟩
  rw [CacheEvent.creates, Bool.and_eq_true, Store.get?_isSome_iff] at created
  have generationEq := issue.after.generation_after later id.slot
  rw [afterEq, sinceEq, created.2.1] at generationEq
  have vacated : 0 < since.countP fun event => event.vacates id.slot :=
    List.countP_pos_iff.mpr ⟨event, eventMem, vacates_of_removes removed⟩
  by_contra present
  have current := (Store.get?_isSome_iff.mp (Option.isSome_iff_ne_none.mpr present)).1
  exact Nat.ne_of_gt vacated
    (Store.eq_zero_of_add_ofNat_eq bounded (generationEq.symm.trans current))

theorem dropsStale (start : CacheState) (calls : List CacheCall) : start.DropsStale calls where
  lapses _ stale := Store.lacks_of_get? stale.get?_eq_none
  drops id stale status pixmap := by
    rw [complete]
    split
    · rfl
    · rw [stale.get?_eq_none]

/-- Names do not dangle: neither in a store, whatever is done to it before and after a record is
inserted, nor in a cache that gets a late result. -/
theorem naming_after (before : List StoreCall) (record : Record) (since : List StoreCall)
    (start : CacheState) (calls : List CacheCall) :
    ((Store.empty.performAll before).insert record).2.Naming
        ((Store.empty.performAll before).insert record).1 record since ∧
      start.DropsStale calls :=
  ⟨Store.naming_insert before record since, dropsStale start calls⟩

/-- A request expires, and its page is asked for again. The new record of the page is in progress in
the slot of the old one. -/
def lateCalls : List CacheCall :=
  [.request (letterPage 0x61) (.constant .crashed) 0, .nextJob,
    .complete ⟨⟨0, 0⟩, .requestExpired, none⟩, .request (letterPage 0x61) (.constant .crashed) 1,
    .nextJob]

theorem naming_lateCalls :
    ((Store.empty.insert (Store.letterRecord 0x61)).2.performAll
        [.remove ⟨0, 0⟩, .insert (Store.letterRecord 0x61)]).Lacks ⟨0, 0⟩ ∧
      (new hastyConfig ⟨[0x2f]⟩).Stale lateCalls ⟨0, 0⟩ ∧
      ((new hastyConfig ⟨[0x2f]⟩).after lateCalls).store.find? (letterPage 0x61) = some ⟨0, 1⟩ ∧
      ((new hastyConfig ⟨[0x2f]⟩).after lateCalls).complete ⟨⟨0, 0⟩, .loadFailed, none⟩ =
        (none, (new hastyConfig ⟨[0x2f]⟩).after lateCalls) := by
  have named := naming_after [] (Store.letterRecord 0x61)
    [.remove ⟨0, 0⟩, .insert (Store.letterRecord 0x61)] (new hastyConfig ⟨[0x2f]⟩) lateCalls
  have stale : (new hastyConfig ⟨[0x2f]⟩).Stale lateCalls ⟨0, 0⟩ :=
    ⟨[], _, _, rfl, by decide, ⟨_, .tail _ (.head _), by decide⟩, by decide⟩
  exact ⟨named.1.lapses (.head _) (by decide), stale, by decide, named.2.drops _ stale _ _⟩

end CacheState

end Thumbnails
