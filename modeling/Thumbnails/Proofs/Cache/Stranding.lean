import Thumbnails.Proofs.Cache.Wakeup

/-!
# Loaders that break down

A loader that breaks down hands back its start, and the next request that has to wait starts another
one. What it does not hand back is the record that it had taken from the queue. That record stays in
progress with nobody to load it, and whoever asks for its key waits along with it.

`SharedCache.Stranding` says how far this goes. It takes a breakdown over the copy of a generator or
in the out-of-memory handler, and costs one record each time. All other records in progress are in
the hand of the loader or have a result that will be applied, whatever breaks down.
-/

namespace Thumbnails

/-- Some names are those of the records in progress. -/
structure Accounts (ids : List RecordId) (view : StoreView) : Prop where
  nodup : ids.Nodup
  mem_iff : ∀ id, id ∈ ids ↔ view.statusOf? id = some .inProgress

namespace Accounts

variable {ids others : List RecordId} {id : RecordId} {state after : CacheState}
  {view next : StoreView} {call : CacheCall} {answer : CacheAnswer}

theorem perm (accounts : Accounts ids view) (perm : others.Perm ids) : Accounts others view := by
  refine ⟨perm.nodup_iff.mpr accounts.nodup, fun id => ?_⟩
  rw [perm.mem_iff]
  exact accounts.mem_iff id

theorem keep (accounts : Accounts ids view) (effect : state.Effect view call answer after next)
    (tidy : state.Tidy view) (untaken : answer.taken? = none)
    (unsettled : call.settled? answer = none) : Accounts ids next := by
  refine ⟨accounts.nodup, fun id => ?_⟩
  rw [effect.inProgress_iff tidy.wellFormed tidy.orderly, untaken, unsettled, accounts.mem_iff]
  simp

theorem take (accounts : Accounts ids view) {dequeued : Dequeued}
    (effect : state.Effect view .nextJob (.taken (some dequeued)) after next)
    (tidy : state.Tidy view) : Accounts (dequeued.id :: ids) next := by
  have queued : view.statusOf? dequeued.id = some .queued :=
    effect.queued_of_taken tidy.wellFormed tidy.orderly rfl
  have absent : dequeued.id ∉ ids := by
    rw [accounts.mem_iff, queued]
    exact nofun
  refine ⟨List.nodup_cons.mpr ⟨absent, accounts.nodup⟩, fun id => ?_⟩
  rw [effect.inProgress_iff tidy.wellFormed tidy.orderly, List.mem_cons, accounts.mem_iff]
  simp [CacheAnswer.taken?, CacheCall.settled?, eq_comm]

/-- A result that is applied finds its record waiting for it, and takes it off the accounts. -/
theorem settle {result : LoadResult} {completion : Option Completion}
    (accounts : Accounts (result.id :: ids) view)
    (effect : state.Effect view (.complete result) (.completed completion) after next)
    (tidy : state.Tidy view) (running : state.shuttingDown = false) : Accounts ids next := by
  rcases List.nodup_cons.mp accounts.nodup with ⟨gone, nodup⟩
  have inProgress := (accounts.mem_iff result.id).mp List.mem_cons_self
  rcases Option.isSome_iff_exists.mp (SharedCache.completion_isSome effect running inProgress) with
    ⟨completion, rfl⟩
  refine ⟨nodup, fun id => ?_⟩
  rw [effect.inProgress_iff tidy.wellFormed tidy.orderly, ← accounts.mem_iff, List.mem_cons]
  simp only [CacheAnswer.taken?, CacheCall.settled?, reduceCtorEq, false_or, ne_eq,
    Option.some.injEq]
  constructor
  · intro idMem
    exact ⟨.inr idMem, fun same => gone (same ▸ idMem)⟩
  · rintro ⟨rfl | idMem, different⟩
    · exact absurd rfl different
    · exact idMem

end Accounts

namespace SharedCache

variable {cache after : SharedCache} {view next : StoreView} {lost stranded : List RecordId}

theorem Watched.loaders_eq (watched : cache.Watched view) {loader : Nat} {phase : LoaderPhase}
    (found : cache.loaders[loader]? = some phase) : cache.loaders = [phase] ∧ loader = 0 := by
  have claims := watched.manned
  have single := cache.state.claims_le_one
  apply loaders_eq_of_single _ found
  rw [SharedCache.manned] at claims
  omega

/-- What a move leaves under way or stranded are the records in progress after it. -/
theorem Watched.accounts_after (watched : cache.Watched view)
    (accounts : Accounts (cache.inFlight ++ stranded) view)
    (effect : cache.Effect view lost after next) (tidy : cache.state.Tidy view)
    (running : cache.state.shuttingDown = false) :
    Accounts (after.inFlight ++ (stranded ++ lost)) next := by
  have handedOn : ∀ {after : SharedCache}, after.inFlight = cache.inFlight →
      Accounts (after.inFlight ++ (stranded ++ [])) view := by
    intro after same
    rwa [List.append_nil, same]
  cases effect with
  | requested effect =>
      rw [List.append_nil]
      exact accounts.keep effect tidy rfl rfl
  | called effect untaken unsettled unasked kept =>
      rw [List.append_nil]
      exact accounts.keep effect tidy untaken unsettled
  | stopped found closing =>
      rcases closing with closing | closed
      · cases closing.symm.trans running
      · cases closed.symm.trans watched.unclosed
  | slept found idle =>
      rcases watched.loaders_eq found with ⟨loadersEq, rfl⟩
      exact handedOn (by simp [inFlight, setPhase, loadersEq, LoaderPhase.hand])
  | took found effect =>
      rename_i dequeued _
      rcases watched.loaders_eq found with ⟨loadersEq, rfl⟩
      apply (accounts.take effect tidy).perm
      have longer : inFlight { cache with loaders := [.holding dequeued] } =
          cache.inFlight ++ [dequeued.id] := by simp [inFlight, loadersEq, LoaderPhase.hand]
      simp only [setPhase, loadersEq, List.set_cons_zero, List.append_nil]
      change List.Perm (inFlight { cache with loaders := [.holding dequeued] } ++ stranded) _
      rw [longer, List.append_assoc]
      exact List.perm_middle
  | wentOn found hand awake =>
      rcases watched.loaders_eq found with ⟨loadersEq, rfl⟩
      exact handedOn (by simp [inFlight, setPhase, loadersEq, hand])
  | posted found =>
      rcases watched.loaders_eq found with ⟨loadersEq, rfl⟩
      exact handedOn (by simp [inFlight, setPhase, loadersEq, LoaderPhase.hand])
  | brokeDownTaking found effect =>
      rcases watched.loaders_eq found with ⟨loadersEq, rfl⟩
      apply (accounts.take effect tidy).perm
      have same : inFlight { cache with loaders := [.dying] } = cache.inFlight := by
        simp [inFlight, loadersEq, LoaderPhase.hand]
      simp only [setPhase, loadersEq, List.set_cons_zero]
      change List.Perm (inFlight { cache with loaders := [.dying] } ++ _) _
      rw [same, ← List.append_assoc]
      exact List.perm_append_singleton _ _
  | brokeDownLoading found =>
      rename_i job
      rcases watched.loaders_eq found with ⟨loadersEq, rfl⟩
      apply accounts.perm
      have shorter : cache.inFlight = inFlight { cache with loaders := [.dying] } ++ [job.id] := by
        simp [inFlight, loadersEq, LoaderPhase.hand, Dequeued.id]
      simp only [setPhase, loadersEq, List.set_cons_zero]
      rw [shorter, List.append_assoc]
      exact List.perm_append_comm.append_left _
  | handedBack found =>
      rcases watched.loaders_eq found with ⟨loadersEq, rfl⟩
      exact handedOn (by simp [inFlight, dropLoader, loadersEq, LoaderPhase.hand])
  | received resultsEq => exact handedOn (by simp [inFlight, resultsEq])
  | applied receivedEq effect =>
      rw [List.append_nil]
      apply Accounts.settle _ effect tidy running
      exact accounts.perm ((inFlight_perm receivedEq _).symm.append_right stranded)
  | started claimed => exact handedOn (by simp [inFlight, LoaderPhase.hand])
  | notified due =>
      exact handedOn (by simp [inFlight, List.flatMap_map, LoaderPhase.hand_roused])
  | closed closing => cases closing.symm.trans running
  | nothing => exact handedOn rfl
  | startFailed claimed => exact handedOn rfl

theorem accounts_after (config : Config) (directory : Path) (moves : List Move) : ∃ view,
    ((new config directory).after moves).state.Tidy view ∧
      (((new config directory).after moves).state.shuttingDown = false →
        ((new config directory).after moves).Watched view ∧
        Accounts (((new config directory).after moves).inFlight ++
          (new config directory).stranded moves) view) := by
  induction moves using List.reverseRecOn with
  | nil =>
      refine ⟨_, CacheState.Tidy.new config directory, fun _ => ⟨⟨rfl, rfl, nofun⟩, ?_⟩⟩
      refine ⟨List.nodup_nil, fun id => iff_of_false nofun ?_⟩
      simp [StoreView.statusOf?, StoreView.empty]
  | append_singleton moves move ih =>
      rcases ih with ⟨view, tidy, standing⟩
      rcases hasEffect_perform tidy move with ⟨next, effect, nextTidy⟩
      rw [after_concat, stranded_concat]
      refine ⟨next, nextTidy, fun running => ?_⟩
      have wasRunning := effect.running_before running
      rcases standing wasRunning with ⟨watched, accounts⟩
      exact ⟨watched.step effect tidy wasRunning,
        watched.accounts_after accounts effect tidy wasRunning⟩

/-- Every record in progress is in the hand of a loader, or has a result that is to be applied. -/
def Unstranded (cache : SharedCache) : Prop :=
  ∀ id, cache.state.store.statusOf? id = some .inProgress → id ∈ cache.inFlight

/-- What breakdowns of loaders come to, after some moves. -/
structure Stranding (start : SharedCache) (moves : List Move) : Prop where
  nodup : ((start.after moves).inFlight ++ start.stranded moves).Nodup
  inProgress_iff : ∀ id, (start.after moves).state.store.statusOf? id = some .inProgress ↔
    id ∈ (start.after moves).inFlight ∨ id ∈ start.stranded moves
  /-- A result that was posted will be told to the subscribers. -/
  completes : ∀ result, result ∈ (start.after moves).inbox.results ∨
      (∃ thread, ⟨thread, result⟩ ∈ (start.after moves).received) →
    ((start.after moves).state.complete result).1.isSome
  /-- What was stranded earlier still is. -/
  lasting : ∀ earlier, earlier <+: moves → start.stranded earlier ⊆ start.stranded moves
  /-- Who asks for a key whose record is stranded has to wait, and starts no load of it. -/
  waits : ∀ id ∈ start.stranded moves, ∀ record,
    (start.after moves).state.store.get? id = some record → ∀ generator subscriber,
      ((start.after moves).state.request record.key generator subscriber).1 = .queued ∧
      ((start.after moves).state.request record.key generator subscriber).2.2.store.statusOf? id =
        some .inProgress
  unstranded_iff : (start.after moves).Unstranded ↔ start.stranded moves = []

/-- A request for a key whose record is in progress joins that record. -/
theorem request_inProgress {state : CacheState} (tidy : state.Tidy view)
    (running : state.shuttingDown = false) {id : RecordId} {record : Record}
    (present : view.records id = some record) (inProgress : record.status = .inProgress)
    (generator : Generator) (subscriber : SubscriberId) :
    (state.request record.key generator subscriber).1 = .queued ∧
      (state.request record.key generator subscriber).2.2.store.statusOf? id =
        some .inProgress := by
  rcases requestEq : state.request record.key generator subscriber with ⟨status, wake, after⟩
  rcases tidy.effect_request requestEq with ⟨next, effect, nextTidy⟩
  refine ⟨?_, ?_⟩
  · have named := tidy.wellFormed.names_eq present
    cases effect with
    | requestRefused closing => cases closing.symm.trans running
    | requestAnswered _ answers =>
        have finished := answers.finished named present
        rw [inProgress] at finished
        cases finished
    | requestJoined => rfl
    | requestCreated _ unnamed => cases named.symm.trans unnamed
  · change after.store.statusOf? id = _
    rw [nextTidy.statusOf?_eq, effect.inProgress_iff tidy.wellFormed tidy.orderly]
    right
    exact ⟨by rw [StoreView.statusOf?_eq present, inProgress], (Option.some_ne_none id).symm⟩

/-- However the moves are interleaved, the records in progress are those that are under way and
those that a loader broke down over. No replacement takes up the latter. -/
theorem stranding_after (config : Config) (directory : Path) (moves : List Move)
    (running : ((new config directory).after moves).state.shuttingDown = false) :
    (new config directory).Stranding moves := by
  rcases accounts_after config directory moves with ⟨view, tidy, standing⟩
  rcases standing running with ⟨watched, accounts⟩
  have inProgress_iff : ∀ id,
      ((new config directory).after moves).state.store.statusOf? id = some .inProgress ↔
        id ∈ ((new config directory).after moves).inFlight ∨
          id ∈ (new config directory).stranded moves := by
    intro id
    rw [tidy.statusOf?_eq, ← accounts.mem_iff, List.mem_append]
  refine ⟨accounts.nodup, inProgress_iff, ?_, ?_, ?_, ?_⟩
  · intro result posted
    rcases tidy.complete result with ⟨next, effect, _⟩
    apply completion_isSome effect running
    rw [← accounts.mem_iff]
    exact List.mem_append_left _ (mem_inFlight_of_result posted)
  · rintro earlier ⟨more, rfl⟩
    rw [stranded_append]
    exact List.subset_append_left _ _
  · intro id idStranded record found generator subscriber
    rw [tidy.represents.records] at found
    have inProgress := (accounts.mem_iff id).mp (List.mem_append_right _ idStranded)
    rw [StoreView.statusOf?_eq found, Option.some.injEq] at inProgress
    exact request_inProgress tidy running found inProgress generator subscriber
  · rw [List.eq_nil_iff_forall_not_mem]
    constructor
    · intro unstranded id idStranded
      have inFlight := unstranded id ((inProgress_iff id).mpr (.inr idStranded))
      exact (List.nodup_append.mp accounts.nodup).2.2 id inFlight id idStranded rfl
    · intro nothing id inProgress
      exact ((inProgress_iff id).mp inProgress).resolve_right (nothing id)

/-- A loader breaks down over a page that it has taken. The page is asked for again, which starts
another loader, and that one finds nothing to do. -/
def strandingMoves : List Move :=
  [.request (letterKey 0x61) (.constant .crashed) 0, .start, .look 0, .crash 0, .handBack 0,
    .request (letterKey 0x61) (.constant .crashed) 1, .start, .look 0]

theorem stranding_strandingMoves :
    ((new tightConfig ⟨[0x2f]⟩).after strandingMoves).state.shuttingDown = false ∧
      (new tightConfig ⟨[0x2f]⟩).Stranding strandingMoves ∧
      (new tightConfig ⟨[0x2f]⟩).stranded strandingMoves = [⟨0, 0⟩] :=
  ⟨by decide, stranding_after tightConfig ⟨[0x2f]⟩ strandingMoves (by decide), by decide⟩

/-- A loader that breaks down may leave a record in progress that nobody has in hand. -/
theorem not_unstranded_strandingMoves :
    ((new tightConfig ⟨[0x2f]⟩).after strandingMoves).state.shuttingDown = false ∧
      ¬((new tightConfig ⟨[0x2f]⟩).after strandingMoves).Unstranded := by
  refine ⟨by decide, fun unstranded => ?_⟩
  have waiting : ((new tightConfig ⟨[0x2f]⟩).after strandingMoves).state.store.statusOf? ⟨0, 0⟩ =
      some .inProgress := by decide
  have held := unstranded ⟨0, 0⟩ waiting
  have nobody : ((new tightConfig ⟨[0x2f]⟩).after strandingMoves).inFlight = [] := by decide
  rw [nobody] at held
  cases held

end SharedCache

end Thumbnails
