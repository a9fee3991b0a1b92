import Thumbnails.Proofs.Cache.Consistency
import Thumbnails.Proofs.Cache.Interleaving
import Thumbnails.Proofs.Cache.Lifecycle

/-!
# Results under way

Until a cache begins to shut down, the records in progress are those whose results are under way: in
the hand of the loader, in the inbox, or received and not yet applied. Each of them is in one of
these places, once. So every result that was posted finds its record waiting for it.

The invariant is `SharedCache.Sound`. Most moves only hand results on, and leave the list of what is
under way as it is. It grows at its end when the loader takes a record from the queue, and shrinks
when a result is applied, at its head if a single thread drains the cache.
-/

namespace Thumbnails

namespace SharedCache

/-- What the threads have in hand agrees with the statuses of the records. -/
structure Sound (cache : SharedCache) (view : StoreView) : Prop where
  unclosed : cache.inbox.closed = false
  claims : cache.starts + cache.loaders.length = if cache.state.loaderStarted then 1 else 0
  alive : ∀ phase ∈ cache.loaders, phase ≠ .dying
  nodup : cache.inFlight.Nodup
  inFlight_iff : ∀ id, id ∈ cache.inFlight ↔ view.statusOf? id = some .inProgress
  jobs : ∀ job, .holding (.load job) ∈ cache.loaders →
    ∃ record, view.records job.id = some record ∧ record.key = job.key
  once : ∀ id, cache.dequeued.count id + (if view.statusOf? id = some .queued then 1 else 0) =
    cache.created.count id
  drained : ∀ receipt ∈ cache.received, receipt.thread ∈ cache.drainers
  conserved : cache.dequeued.Perm (cache.applied.map LoadResult.id ++ cache.inFlight)
  in_order : ∀ drainer, (∀ thread ∈ cache.drainers, thread = drainer) →
    cache.dequeued = cache.applied.map LoadResult.id ++ cache.inFlight

/-- The state is tidy, and until it shuts down everything under way is accounted for. -/
def Guarded (cache : SharedCache) : Prop :=
  ∃ view, cache.state.Tidy view ∧ (cache.state.shuttingDown = false → cache.Sound view)

variable {cache : SharedCache} {view next : StoreView} {phase : LoaderPhase} {loader : Nat}

/-- A loader that is the only one is the first one. -/
theorem loaders_eq_of_single (single : cache.loaders.length ≤ 1)
    (found : cache.loaders[loader]? = some phase) : cache.loaders = [phase] ∧ loader = 0 := by
  have inside := (List.getElem?_eq_some_iff.mp found).1
  have first : loader = 0 := by omega
  rcases List.length_eq_one_iff.mp (by omega : cache.loaders.length = 1) with ⟨only, loadersEq⟩
  rw [loadersEq, first] at found
  exact ⟨by rw [loadersEq, Option.some.inj found], first⟩

/-- There is at most one loader. -/
theorem Sound.loaders_eq (sound : cache.Sound view) (found : cache.loaders[loader]? = some phase) :
    cache.loaders = [phase] ∧ loader = 0 := by
  have claims := sound.claims
  apply loaders_eq_of_single _ found
  split at claims <;> omega

theorem Sound.set_eq (sound : cache.Sound view) (found : cache.loaders[loader]? = some phase)
    (new : LoaderPhase) : cache.loaders.set loader new = [new] := by
  rcases sound.loaders_eq found with ⟨loadersEq, rfl⟩
  rw [loadersEq]
  rfl

theorem mem_inFlight_of_holding {dequeued : Dequeued}
    (held : .holding dequeued ∈ cache.loaders) : dequeued.id ∈ cache.inFlight := by
  apply List.mem_append_right
  apply List.mem_append_right
  exact List.mem_flatMap_of_mem held (by simp [LoaderPhase.hand])

/-- Loaders and the inbox may change if that leaves what is under way. -/
theorem Sound.handOn (sound : cache.Sound view) {loaders : List LoaderPhase} {inbox : Inbox}
    {starts notices : Nat} (unclosed : inbox.closed = false)
    (claims : starts + loaders.length = if cache.state.loaderStarted then 1 else 0)
    (alive : ∀ phase ∈ loaders, phase ≠ .dying)
    (jobs : ∀ job, .holding (.load job) ∈ loaders → .holding (.load job) ∈ cache.loaders)
    (same : inFlight { cache with loaders, inbox, starts, notices } = cache.inFlight) :
    Sound { cache with loaders, inbox, starts, notices } view := by
  refine ⟨unclosed, claims, alive, ?_, ?_, ?_, sound.once, sound.drained, ?_, ?_⟩
  · rw [same]
    exact sound.nodup
  · rw [same]
    exact sound.inFlight_iff
  · intro job jobMem
    exact sound.jobs job (jobs job jobMem)
  · rw [same]
    exact sound.conserved
  · rw [same]
    exact sound.in_order

/-- A loader goes on to a phase in which it has the same result in hand. -/
theorem Sound.setPhase (sound : cache.Sound view) {old new : LoaderPhase}
    (found : cache.loaders[loader]? = some old) (hand : new.hand = old.hand)
    (alive : new ≠ .dying) (jobs : ∀ job, new = .holding (.load job) → old = new) :
    (cache.setPhase loader new).Sound view := by
  rcases sound.loaders_eq found with ⟨loadersEq, _⟩
  simp only [SharedCache.setPhase, sound.set_eq found]
  apply sound.handOn sound.unclosed
  · have claims := sound.claims
    rw [loadersEq] at claims
    exact claims
  · intro phase phaseMem
    rw [List.mem_singleton.mp phaseMem]
    exact alive
  · intro job jobMem
    have newEq := (List.mem_singleton.mp jobMem).symm
    rw [loadersEq, jobs job newEq, newEq]
    exact List.mem_singleton_self _
  · simp [inFlight, loadersEq, hand]

theorem Guarded.rouse (guarded : cache.Guarded) (loader : Nat) : (cache.rouse loader).Guarded := by
  simp only [SharedCache.rouse]
  split
  · rename_i found
    rcases guarded with ⟨view, tidy, sound⟩
    refine ⟨view, tidy, fun running => ?_⟩
    exact (sound running).setPhase found rfl nofun nofun
  · exact guarded

theorem Guarded.load (guarded : cache.Guarded) (loader : Nat) (outcome : Outcome Image) :
    (cache.load loader outcome).Guarded := by
  simp only [SharedCache.load]
  split
  · rename_i dequeued found
    rcases guarded with ⟨view, tidy, sound⟩
    refine ⟨view, tidy, fun running => ?_⟩
    refine (sound running).setPhase found ?_ nofun nofun
    simp [LoaderPhase.hand, Dequeued.result_id]
  · exact guarded

theorem Guarded.notified (guarded : cache.Guarded) (loader : Nat) :
    (cache.notified loader).Guarded := by
  simp only [SharedCache.notified]
  split
  · rename_i found
    rcases guarded with ⟨view, tidy, sound⟩
    refine ⟨view, tidy, fun running => ?_⟩
    exact (sound running).setPhase found rfl nofun nofun
  · exact guarded

theorem Guarded.post (guarded : cache.Guarded) (loader : Nat) : (cache.post loader).Guarded := by
  simp only [SharedCache.post]
  split
  · rename_i result found
    rcases guarded with ⟨view, tidy, sound⟩
    cases posted : cache.inbox.post result with
    | none =>
        refine ⟨view, tidy, fun running => ?_⟩
        simp [Inbox.post, (sound running).unclosed] at posted
    | some inbox =>
        refine ⟨view, tidy, fun running => ?_⟩
        have sound := sound running
        rcases sound.loaders_eq found with ⟨loadersEq, _⟩
        have inboxEq : inbox = { cache.inbox with results := cache.inbox.results ++ [result] } := by
          simpa [Inbox.post, sound.unclosed] using posted.symm
        have unclosed : inbox.closed = false := by
          rw [inboxEq]
          exact sound.unclosed
        simp only [SharedCache.setPhase, sound.set_eq found]
        apply sound.handOn unclosed
        · have claims := sound.claims
          rw [loadersEq] at claims
          exact claims
        · intro phase phaseMem
          rw [List.mem_singleton.mp phaseMem]
          exact nofun
        · intro job jobMem
          cases List.mem_singleton.mp jobMem
        · simp [inFlight, loadersEq, inboxEq, LoaderPhase.hand]
  · exact guarded

theorem Guarded.start (guarded : cache.Guarded) : cache.start.Guarded := by
  simp only [SharedCache.start]
  split
  · exact guarded
  · rename_i starts startsEq
    rcases guarded with ⟨view, tidy, sound⟩
    refine ⟨view, tidy, fun running => ?_⟩
    have sound := sound running
    apply sound.handOn sound.unclosed
    · have claims := sound.claims
      rw [startsEq] at claims
      rw [← claims, List.length_append, List.length_singleton]
      omega
    · intro phase phaseMem
      rcases List.mem_append.mp phaseMem with old | new
      · exact sound.alive phase old
      · rw [List.mem_singleton.mp new]
        exact nofun
    · intro job jobMem
      rcases List.mem_append.mp jobMem with old | new
      · exact old
      · cases List.mem_singleton.mp new
    · simp [inFlight, LoaderPhase.hand]

theorem LoaderPhase.hand_roused (phase : LoaderPhase) : phase.roused.hand = phase.hand := by
  cases phase <;> rfl

theorem Guarded.notify (guarded : cache.Guarded) : cache.notify.Guarded := by
  simp only [SharedCache.notify]
  split
  · exact guarded
  · rename_i notices noticesEq
    rcases guarded with ⟨view, tidy, sound⟩
    refine ⟨view, tidy, fun running => ?_⟩
    have sound := sound running
    apply sound.handOn sound.unclosed
    · rw [List.length_map]
      exact sound.claims
    · intro phase phaseMem
      rcases List.mem_map.mp phaseMem with ⟨old, oldMem, rfl⟩
      have alive := sound.alive old oldMem
      cases old <;> simp_all [LoaderPhase.roused]
    · intro job jobMem
      rcases List.mem_map.mp jobMem with ⟨old, oldMem, rousedEq⟩
      cases old <;> simp_all [LoaderPhase.roused]
    · simp [inFlight, List.flatMap_map, LoaderPhase.hand_roused]

theorem Guarded.receive (guarded : cache.Guarded) (thread : Nat) :
    (cache.receive thread).Guarded := by
  simp only [SharedCache.receive]
  split
  · rename_i result results free resultsEq
    rcases guarded with ⟨view, tidy, sound⟩
    refine ⟨view, tidy, fun running => ?_⟩
    have sound := sound running
    have same : inFlight { cache with
        inbox := { cache.inbox with results }
        received := cache.received ++ [⟨thread, result⟩]
        drainers := cache.drainers ++ [thread] } = cache.inFlight := by
      simp [inFlight, resultsEq]
    refine ⟨sound.unclosed, sound.claims, sound.alive, ?_, ?_, sound.jobs, sound.once, ?_, ?_, ?_⟩
    · rw [same]
      exact sound.nodup
    · rw [same]
      exact sound.inFlight_iff
    · intro receipt receiptMem
      rcases List.mem_append.mp receiptMem with old | new
      · exact List.mem_append_left _ (sound.drained receipt old)
      · rw [List.mem_singleton.mp new]
        simp
    · rw [same]
      exact sound.conserved
    · intro drainer alone
      rw [same]
      apply sound.in_order drainer
      intro other otherMem
      exact alone other (List.mem_append_left _ otherMem)
  · exact guarded

variable {call : CacheCall} {answer : CacheAnswer} {after : CacheState}

/-- The record of a job keeps its key as long as it is in progress. -/
theorem Sound.job_kept (sound : cache.Sound view)
    (effect : cache.state.Effect view call answer after next) (tidy : cache.state.Tidy view)
    {job : LoadJob} (held : .holding (.load job) ∈ cache.loaders)
    (inProgress : next.statusOf? job.id = some .inProgress) :
    ∃ record, next.records job.id = some record ∧ record.key = job.key := by
  rcases sound.jobs job held with ⟨record, present, keyEq⟩
  rcases Option.map_eq_some_iff.mp inProgress with ⟨kept, keptPresent, _⟩
  have change := effect.change tidy.wellFormed tidy.orderly job.id
  exact ⟨kept, keptPresent, (change.key_eq present keptPresent).trans keyEq⟩

/-- Nothing is made but by requests. -/
theorem not_made {state : CacheState} {id : RecordId}
    (effect : state.Effect view call answer after next) (tidy : state.Tidy view)
    (unasked : ∀ key generator subscriber, call ≠ .request key generator subscriber) :
    ¬(view.records id = none ∧ (next.records id).isSome) := by
  rintro ⟨absent, present⟩
  rcases (effect.change tidy.wellFormed tidy.orderly id).created_by_request absent present with
    ⟨key, generator, subscriber, callEq⟩
  exact unasked key generator subscriber callEq

/-- A call that neither takes a record nor settles a load leaves everything under way. -/
theorem Sound.effect (sound : cache.Sound view)
    (effect : cache.state.Effect view call answer after next) (tidy : cache.state.Tidy view)
    (untaken : answer.taken? = none) (unsettled : call.settled? answer = none)
    {starts notices : Nat} {made : List RecordId}
    (claims : starts + cache.loaders.length = if after.loaderStarted then 1 else 0)
    (madeEq : ∀ id, made.count id =
      if view.records id = none ∧ (next.records id).isSome then 1 else 0) :
    Sound { cache with state := after, starts, notices, created := cache.created ++ made }
      next := by
  have inProgress : ∀ id, next.statusOf? id = some .inProgress ↔
      view.statusOf? id = some .inProgress := by
    intro id
    rw [effect.inProgress_iff tidy.wellFormed tidy.orderly, untaken, unsettled]
    simp
  refine ⟨sound.unclosed, claims, sound.alive, sound.nodup, ?_, ?_, ?_, sound.drained,
    sound.conserved, sound.in_order⟩
  · intro id
    rw [inProgress]
    exact sound.inFlight_iff id
  · intro job held
    apply sound.job_kept effect tidy held
    rw [inProgress]
    exact (sound.inFlight_iff job.id).mp (mem_inFlight_of_holding held)
  · intro id
    have before := sound.once id
    have balance := effect.queued_balance tidy.wellFormed tidy.orderly id
    have nothing : (none : Option RecordId) ≠ some id := nofun
    rw [untaken, if_neg nothing] at balance
    simp only [List.count_append, madeEq]
    omega

/-- Such a call makes no record, unless it is a request. -/
theorem Sound.effect_unasked (sound : cache.Sound view)
    (effect : cache.state.Effect view call answer after next) (tidy : cache.state.Tidy view)
    (untaken : answer.taken? = none) (unsettled : call.settled? answer = none)
    (unasked : ∀ key generator subscriber, call ≠ .request key generator subscriber)
    {starts : Nat}
    (claims : starts + cache.loaders.length = if after.loaderStarted then 1 else 0) :
    Sound { cache with state := after, starts } next := by
  have unmade : cache.created = cache.created ++ [] := (List.append_nil _).symm
  rw [unmade]
  apply sound.effect effect tidy untaken unsettled claims
  intro id
  rw [if_neg (not_made effect tidy unasked), List.count_nil]

theorem Guarded.underLock (guarded : cache.Guarded)
    (untaken : (cache.state.perform call).1.taken? = none)
    (unsettled : call.settled? (cache.state.perform call).1 = none)
    (unasked : ∀ key generator subscriber, call ≠ .request key generator subscriber)
    (kept : call ≠ .loaderLost) : (cache.underLock call).Guarded := by
  rcases guarded with ⟨view, tidy, sound⟩
  rcases tidy.perform call with ⟨next, effect, nextTidy⟩
  refine ⟨next, nextTidy, fun running => ?_⟩
  have sound := sound (effect.running_before running)
  apply sound.effect_unasked effect tidy untaken unsettled unasked
  rw [effect.loaderStarted_eq unasked kept]
  exact sound.claims

theorem count_recordMade {state : CacheState} {key : ThumbnailKey} {generator : Generator}
    {subscriber : SubscriberId}
    (effect : state.Effect view (.request key generator subscriber) answer after next)
    (tidy : state.Tidy view) (nextTidy : after.Tidy next) (id : RecordId) :
    (recordMade state after key).count id =
      if view.records id = none ∧ (next.records id).isSome then 1 else 0 := by
  have same : ∀ {record : Option Record}, ¬(record = none ∧ record.isSome) := by
    rintro record ⟨rfl, present⟩
    cases present
  simp only [recordMade]
  rw [tidy.represents.names, nextTidy.represents.names]
  cases effect with
  | requestRefused closing =>
      rw [if_neg same]
      cases view.names key <;> rfl
  | requestAnswered running answers =>
      rw [answers.records_eq, if_neg same]
      cases answers with
      | hit named => simp [named]
      | failed named => simp [named]
  | requestJoined running named present waiting =>
      rename_i joined _ _
      rw [named, StoreView.records_join]
      by_cases own : id = joined
      · simp [own, present]
      · rw [if_neg own, if_neg same]
        rfl
  | requestCreated running unnamed fresh =>
      rename_i made _
      have found : (view.insert made (.created key generator state.clock subscriber)).names key =
          some made := by simp [StoreView.insert, Record.created, Record.queued]
      rw [unnamed, found, StoreView.records_insert]
      by_cases new : id = made
      · simp [new, fresh]
      · rw [if_neg new, if_neg same]
        simp [Ne.symm new]

theorem Guarded.request (guarded : cache.Guarded) (key : ThumbnailKey) (generator : Generator)
    (subscriber : SubscriberId) : (cache.request key generator subscriber).Guarded := by
  rcases guarded with ⟨view, tidy, sound⟩
  rcases requestEq : cache.state.request key generator subscriber with ⟨status, wake, after⟩
  rcases tidy.effect_request requestEq with ⟨next, effect, nextTidy⟩
  simp only [SharedCache.request]
  simp only [requestEq]
  refine ⟨next, nextTidy, fun running => ?_⟩
  have sound := sound (effect.running_before running)
  apply sound.effect effect tidy rfl rfl
  · have claims := sound.claims
    have claimed := effect.claim_eq
    by_cases start : wake = .start
    · rw [if_pos start] at claimed ⊢
      omega
    · rw [if_neg start] at claimed ⊢
      omega
  · exact count_recordMade effect tidy nextTidy

theorem Guarded.startFails (guarded : cache.Guarded) : cache.startFails.Guarded := by
  simp only [SharedCache.startFails]
  split
  · exact guarded
  · rename_i starts startsEq
    rcases guarded with ⟨view, tidy, sound⟩
    rcases tidy.perform .loaderLost with ⟨next, effect, nextTidy⟩
    refine ⟨next, nextTidy, fun running => ?_⟩
    have sound := sound running
    have claims := sound.claims
    apply sound.effect_unasked effect tidy rfl rfl nofun
    change starts + cache.loaders.length = 0
    split at claims <;> omega

/-- Without a crash, no loader hands its start back. -/
theorem Guarded.handBack (guarded : cache.Guarded) (loader : Nat) :
    (cache.handBack loader).Guarded := by
  simp only [SharedCache.handBack]
  split
  · rename_i found
    rcases guarded with ⟨view, tidy, sound⟩
    rcases tidy.perform .loaderLost with ⟨next, effect, nextTidy⟩
    refine ⟨next, nextTidy, fun running => ?_⟩
    exact absurd rfl ((sound running).alive _ (List.mem_of_getElem? found))
  · exact guarded

theorem job_key {state : CacheState} {job : LoadJob}
    (effect : state.Effect view .nextJob (.taken (some (.load job))) after next) :
    ∃ record, next.records job.id = some record ∧ record.key = job.key := by
  cases effect with
  | jobStarted first present queued timely =>
      rename_i id rest record store
      refine ⟨record.taken, ?_, rfl⟩
      simp [StoreView.records_take]

/-- What is taken goes to the end of what is under way. -/
theorem Sound.take (sound : cache.Sound view) (found : cache.loaders[loader]? = some .looking)
    {dequeued : Dequeued}
    (effect : cache.state.Effect view .nextJob (.taken (some dequeued)) after next)
    (tidy : cache.state.Tidy view) :
    Sound ({ cache with state := after, dequeued := cache.dequeued ++ [dequeued.id] }.setPhase
      loader (.holding dequeued)) next := by
  rcases sound.loaders_eq found with ⟨loadersEq, _⟩
  have queued : view.statusOf? dequeued.id = some .queued :=
    effect.queued_of_taken tidy.wellFormed tidy.orderly rfl
  have longer : inFlight { cache with
      state := after
      dequeued := cache.dequeued ++ [dequeued.id]
      loaders := [.holding dequeued] } = cache.inFlight ++ [dequeued.id] := by
    simp [inFlight, loadersEq, LoaderPhase.hand]
  have absent : dequeued.id ∉ cache.inFlight := by
    rw [sound.inFlight_iff, queued]
    exact nofun
  simp only [SharedCache.setPhase, sound.set_eq found]
  refine ⟨sound.unclosed, ?_, ?_, ?_, ?_, ?_, ?_, sound.drained, ?_, ?_⟩
  · have claims := sound.claims
    rw [loadersEq] at claims
    rw [effect.loaderStarted_eq nofun nofun]
    exact claims
  · intro phase phaseMem
    rw [List.mem_singleton.mp phaseMem]
    exact nofun
  · rw [longer]
    exact List.nodup_append_comm.mp (List.nodup_cons.mpr ⟨absent, sound.nodup⟩)
  · intro id
    rw [longer, effect.inProgress_iff tidy.wellFormed tidy.orderly, List.mem_append,
      sound.inFlight_iff, List.mem_singleton]
    simp [CacheAnswer.taken?, CacheCall.settled?, or_comm, eq_comm]
  · intro job jobMem
    cases List.mem_singleton.mp jobMem
    exact job_key effect
  · intro id
    have before := sound.once id
    have balance := effect.queued_balance tidy.wellFormed tidy.orderly id
    rw [if_neg (not_made effect tidy nofun)] at balance
    simp only [CacheAnswer.taken?, Option.map_some, Option.some.injEq] at balance
    simp only [List.count_append, List.count_singleton, beq_iff_eq]
    omega
  · rw [longer, ← List.append_assoc]
    exact sound.conserved.append_right _
  · intro drainer alone
    rw [longer, ← List.append_assoc, ← sound.in_order drainer alone]

theorem Guarded.look (guarded : cache.Guarded) (loader : Nat) : (cache.look loader).Guarded := by
  simp only [SharedCache.look]
  split
  · rename_i found
    rcases guarded with ⟨view, tidy, sound⟩
    split
    · rename_i closing
      refine ⟨view, tidy, fun running => ?_⟩
      cases closing.symm.trans running
    · rcases jobEq : cache.state.nextJob with ⟨dequeued, after⟩
      rcases tidy.effect_nextJob jobEq with ⟨next, effect, nextTidy⟩
      cases dequeued with
      | none =>
          refine ⟨next, nextTidy, fun running => ?_⟩
          cases effect with
          | nothingQueued idle => exact (sound running).setPhase found rfl (by simp) (by simp)
      | some dequeued =>
          refine ⟨next, nextTidy, fun running => ?_⟩
          exact (sound (effect.running_before running)).take found effect tidy
  · exact guarded

/-- Until the cache shuts down, a result finds its record waiting for it. -/
theorem completion_isSome {state : CacheState} {result : LoadResult}
    {completion : Option Completion}
    (effect : state.Effect view (.complete result) (.completed completion) after next)
    (running : state.shuttingDown = false)
    (inProgress : view.statusOf? result.id = some .inProgress) : completion.isSome := by
  cases effect with
  | resultDropped dropped =>
      rcases dropped with closing | other
      · cases closing.symm.trans running
      · exact absurd inProgress other
  | resultLanded => rfl
  | resultExpired => rfl
  | resultFailed => rfl

variable {front back : List Receipt} {receipt : Receipt} {completion : Option Completion}

theorem inFlight_eq (receivedEq : cache.received = front ++ receipt :: back)
    (state : CacheState) : ∃ rest,
      cache.inFlight =
        front.map (fun receipt => receipt.result.id) ++ receipt.result.id :: rest ∧
      (cache.settle (front ++ back) receipt.result state).inFlight =
        front.map (fun receipt => receipt.result.id) ++ rest := by
  refine ⟨back.map (fun receipt => receipt.result.id) ++
    (cache.inbox.results.map LoadResult.id ++ cache.loaders.flatMap LoaderPhase.hand), ?_, ?_⟩
  · simp [inFlight, receivedEq]
  · simp [inFlight, settle]

theorem inFlight_perm (receivedEq : cache.received = front ++ receipt :: back)
    (state : CacheState) : cache.inFlight.Perm
      (receipt.result.id :: (cache.settle (front ++ back) receipt.result state).inFlight) := by
  rcases inFlight_eq receivedEq state with ⟨rest, before, after⟩
  rw [before, after]
  exact List.perm_middle

theorem Sound.settles (sound : cache.Sound view)
    (receivedEq : cache.received = front ++ receipt :: back)
    (effect : cache.state.Effect view (.complete receipt.result) (.completed completion) after
      next)
    (running : cache.state.shuttingDown = false) : completion.isSome := by
  apply completion_isSome effect running
  rw [← sound.inFlight_iff, (inFlight_perm receivedEq after).mem_iff]
  exact List.mem_cons_self

/-- What was applied is no longer under way, and nothing else has gone. -/
theorem Sound.mem_settle (sound : cache.Sound view)
    (receivedEq : cache.received = front ++ receipt :: back)
    (effect : cache.state.Effect view (.complete receipt.result) (.completed completion) after
      next)
    (tidy : cache.state.Tidy view) (running : cache.state.shuttingDown = false) (id : RecordId) :
    id ∈ (cache.settle (front ++ back) receipt.result after).inFlight ↔
      next.statusOf? id = some .inProgress := by
  have perm := inFlight_perm receivedEq after
  have gone := (List.nodup_cons.mp (perm.nodup_iff.mp sound.nodup)).1
  rcases Option.isSome_iff_exists.mp (sound.settles receivedEq effect running) with
    ⟨completion, rfl⟩
  rw [effect.inProgress_iff tidy.wellFormed tidy.orderly, ← sound.inFlight_iff, perm.mem_iff,
    List.mem_cons]
  simp only [CacheAnswer.taken?, CacheCall.settled?, reduceCtorEq, false_or, ne_eq,
    Option.some.injEq]
  constructor
  · intro idMem
    exact ⟨.inr idMem, fun same => gone (same ▸ idMem)⟩
  · rintro ⟨rfl | idMem, different⟩
    · exact absurd rfl different
    · exact idMem

/-- If a single thread drains the cache, what it applies was under way the longest. -/
theorem Sound.settle (sound : cache.Sound view)
    (receivedEq : cache.received = front ++ receipt :: back)
    (others : ∀ other ∈ front, other.thread ≠ receipt.thread)
    (effect : cache.state.Effect view (.complete receipt.result) (.completed completion) after
      next)
    (tidy : cache.state.Tidy view) (running : cache.state.shuttingDown = false) :
    (cache.settle (front ++ back) receipt.result after).Sound next := by
  have perm := inFlight_perm receivedEq after
  have exact_ids := sound.mem_settle receivedEq effect tidy running
  have nodup := (List.nodup_cons.mp (perm.nodup_iff.mp sound.nodup)).2
  refine ⟨sound.unclosed, ?_, sound.alive, nodup, exact_ids, ?_, ?_, ?_, ?_, ?_⟩
  · change _ = if after.loaderStarted then 1 else 0
    rw [effect.loaderStarted_eq nofun nofun]
    exact sound.claims
  · intro job held
    apply sound.job_kept effect tidy held
    exact (exact_ids job.id).mp (mem_inFlight_of_holding held)
  · intro id
    have once := sound.once id
    have balance := effect.queued_balance tidy.wellFormed tidy.orderly id
    rw [if_neg (not_made effect tidy nofun)] at balance
    simp only [CacheAnswer.taken?, reduceCtorEq, if_false] at balance
    change cache.dequeued.count id + _ = cache.created.count id
    omega
  · intro other otherMem
    apply sound.drained
    rw [receivedEq]
    rcases List.mem_append.mp otherMem with inFront | inBack
    · exact List.mem_append_left _ inFront
    · exact List.mem_append_right _ (List.mem_cons_of_mem _ inBack)
  · refine sound.conserved.trans ?_
    change List.Perm _ ((cache.applied ++ [receipt.result]).map LoadResult.id ++ _)
    rw [List.map_append, List.map_singleton, List.append_assoc]
    exact perm.append_left _
  · intro drainer alone
    have first : front = [] := by
      rcases front with _ | ⟨other, front⟩
      · rfl
      · have otherThread := alone other.thread (sound.drained other (by simp [receivedEq]))
        have ownThread := alone receipt.thread (sound.drained receipt (by simp [receivedEq]))
        exact absurd (otherThread.trans ownThread.symm) (others other List.mem_cons_self)
    rcases inFlight_eq receivedEq after with ⟨rest, before, shorter⟩
    refine (sound.in_order drainer alone).trans ?_
    rw [before, shorter, first]
    simp [SharedCache.settle]

theorem Guarded.apply (guarded : cache.Guarded) (thread : Nat) : (cache.apply thread).Guarded := by
  simp only [SharedCache.apply]
  split
  · exact guarded
  · rename_i receipt found
    rcases guarded with ⟨view, tidy, sound⟩
    rcases tidy.perform (.complete receipt.result) with ⟨next, effect, nextTidy⟩
    refine ⟨next, nextTidy, fun running => ?_⟩
    have wasRunning := effect.running_before running
    rcases received_split found with ⟨front, back, receivedEq, others, erased⟩
    rw [erased]
    exact (sound wasRunning).settle receivedEq others effect tidy wasRunning

theorem Guarded.close (guarded : cache.Guarded) : cache.close.Guarded := by
  simp only [SharedCache.close]
  split
  · rename_i closing
    rcases guarded with ⟨view, tidy, sound⟩
    refine ⟨view, tidy, fun running => ?_⟩
    cases closing.symm.trans running
  · exact guarded

theorem Guarded.perform (guarded : cache.Guarded) {move : Move} (calm : move.isCalm = true) :
    (cache.perform move).Guarded := by
  cases move with
  | request key generator subscriber => exact guarded.request key generator subscriber
  | peek key => exact guarded.underLock rfl rfl nofun nofun
  | recreate key => exact guarded.underLock rfl rfl nofun nofun
  | changeDirectory directory => exact guarded.underLock rfl rfl nofun nofun
  | start => exact guarded.start
  | startFails => exact guarded.startFails
  | notify => exact guarded.notify
  | look loader => exact guarded.look loader
  | rouse loader => exact guarded.rouse loader
  | load loader outcome => exact guarded.load loader outcome
  | post loader => exact guarded.post loader
  | notified loader => exact guarded.notified loader
  | crash loader => cases calm
  | handBack loader => exact guarded.handBack loader
  | receive thread => exact guarded.receive thread
  | apply thread => exact guarded.apply thread
  | shutDown => exact guarded.underLock rfl rfl nofun nofun
  | close => exact guarded.close

theorem Guarded.new (config : Config) (directory : Path) : (new config directory).Guarded := by
  refine ⟨StoreView.empty, CacheState.Tidy.new config directory, fun _ => ?_⟩
  refine ⟨rfl, rfl, nofun, List.nodup_nil, ?_, nofun, ?_, nofun, List.Perm.nil, fun _ _ => rfl⟩
  · intro id
    simp [inFlight, SharedCache.new, Inbox.empty, StoreView.statusOf?, StoreView.empty]
  · intro id
    simp [SharedCache.new, StoreView.statusOf?, StoreView.empty]

theorem guarded_after (config : Config) (directory : Path) {moves : List Move}
    (calm : ∀ move ∈ moves, move.isCalm = true) : ((new config directory).after moves).Guarded := by
  induction moves using List.reverseRecOn with
  | nil => exact Guarded.new config directory
  | append_singleton moves move ih =>
      rw [after_concat]
      have earlier : ((new config directory).after moves).Guarded := by
        apply ih
        intro other otherMem
        exact calm other (List.mem_append_left _ otherMem)
      exact earlier.perform (calm move (by simp))

/-- What loaders and owners of a cache may rely on. -/
structure Protocol (cache : SharedCache) : Prop where
  /-- The loader, or the thread that is yet to start it, is the only one. -/
  single : cache.starts + cache.loaders.length = if cache.state.loaderStarted then 1 else 0
  nodup : cache.inFlight.Nodup
  inFlight_iff : ∀ id, id ∈ cache.inFlight ↔
    cache.state.store.statusOf? id = some .inProgress
  /-- No result that was posted will be dropped. -/
  completes : ∀ result,
    result ∈ cache.inbox.results ∨ (∃ thread, ⟨thread, result⟩ ∈ cache.received) →
      (cache.state.complete result).1.isSome
  keys_nodup : (cache.inFlight.map fun id =>
    (cache.state.store.get? id).map Record.key).Nodup
  job_key : ∀ job, .holding (.load job) ∈ cache.loaders →
    (cache.state.store.get? job.id).map Record.key = some job.key
  /-- Names are used again in the end, so a name is counted as often as it was given. -/
  once : ∀ id, cache.dequeued.count id +
    (if cache.state.store.statusOf? id = some .queued then 1 else 0) = cache.created.count id
  conserved : cache.dequeued.Perm (cache.applied.map LoadResult.id ++ cache.inFlight)
  in_order : ∀ drainer, (∀ thread ∈ cache.drainers, thread = drainer) →
    cache.dequeued = cache.applied.map LoadResult.id ++ cache.inFlight

theorem mem_inFlight_of_result {result : LoadResult}
    (posted : result ∈ cache.inbox.results ∨ ∃ thread, ⟨thread, result⟩ ∈ cache.received) :
    result.id ∈ cache.inFlight := by
  rcases posted with inInbox | ⟨thread, inHand⟩
  · apply List.mem_append_right
    exact List.mem_append_left _ (List.mem_map_of_mem inInbox)
  · apply List.mem_append_left
    exact List.mem_map.mpr ⟨⟨thread, result⟩, inHand, rfl⟩

theorem Sound.protocol (sound : cache.Sound view) (tidy : cache.state.Tidy view)
    (running : cache.state.shuttingDown = false) : cache.Protocol where
  single := sound.claims
  nodup := sound.nodup
  inFlight_iff := by
    intro id
    rw [tidy.statusOf?_eq]
    exact sound.inFlight_iff id
  completes := by
    intro result posted
    rcases tidy.complete result with ⟨next, effect, _⟩
    apply completion_isSome effect running
    exact (sound.inFlight_iff _).mp (mem_inFlight_of_result posted)
  keys_nodup := by
    apply List.Nodup.map_on _ sound.nodup
    intro id idMem other otherMem keyEq
    rcases Option.map_eq_some_iff.mp ((sound.inFlight_iff id).mp idMem) with ⟨record, present, _⟩
    rcases Option.map_eq_some_iff.mp ((sound.inFlight_iff other).mp otherMem) with
      ⟨found, otherPresent, _⟩
    rw [tidy.represents.records, tidy.represents.records, present, otherPresent] at keyEq
    exact tidy.wellFormed.id_eq_of_key_eq present otherPresent (Option.some.inj keyEq)
  job_key := by
    intro job jobMem
    rcases sound.jobs job jobMem with ⟨record, present, keyEq⟩
    rw [tidy.represents.records, present, Option.map_some, keyEq]
  once := by
    intro id
    rw [tidy.statusOf?_eq]
    exact sound.once id
  conserved := sound.conserved
  in_order := sound.in_order

/-- After any moves of any threads, as long as foreign code keeps to what is asked of it and the
cache has not begun to shut down, the protocol between loaders and owners holds. -/
theorem protocol_after (config : Config) (directory : Path) (moves : List Move)
    (calm : ∀ move ∈ moves, move.isCalm = true)
    (running : ((new config directory).after moves).state.shuttingDown = false) :
    ((new config directory).after moves).Protocol := by
  rcases guarded_after config directory calm with ⟨view, tidy, sound⟩
  exact (sound running).protocol tidy running

def letterKey (letter : UInt8) : ThumbnailKey :=
  ThumbnailKey.of ⟨[letter]⟩ 0 ""

def tightConfig : Config :=
  ⟨⟨[0x2f]⟩, ⟨64, 64⟩, 1, 10, 0⟩

/-- Two pages are asked for, the second one twice. It is loaded first, to no avail, and its result
is received by the time the loader takes the other page. -/
def overtakingMoves : List Move :=
  [.request (letterKey 0x61) (.constant .crashed) 0, .start,
    .request (letterKey 0x62) (.constant .crashed) 1, .look 0,
    .request (letterKey 0x62) (.constant .crashed) 2, .load 0 .crashed, .post 0, .notified 0,
    .receive 5, .look 0, .recreate (letterKey 0x62)]

theorem protocol_overtakingMoves :
    ((new tightConfig ⟨[0x2f]⟩).after overtakingMoves).Protocol ∧
      ((new tightConfig ⟨[0x2f]⟩).after overtakingMoves).inFlight = [⟨1, 0⟩, ⟨0, 0⟩] ∧
      ((new tightConfig ⟨[0x2f]⟩).after (overtakingMoves ++ [.apply 5])).inFlight = [⟨0, 0⟩] :=
  ⟨protocol_after tightConfig ⟨[0x2f]⟩ overtakingMoves (by decide) (by decide), by decide,
    by decide⟩

end SharedCache

end Thumbnails
