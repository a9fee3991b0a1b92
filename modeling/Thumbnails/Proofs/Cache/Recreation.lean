import Thumbnails.Proofs.Cache.DiskBacking
import Thumbnails.Proofs.Files.Saving

/-!
# Recreation

A thumbnail is recreated between two looks at the cache: first for the place of its file, and in the
end for the record to be forgotten. In between it is made and saved, and that may fail in many ways,
over the image, over the path, or because the disk is full or breaks at any stage of the save.
`Session.recreates_after` says that it is all or nothing. Either the file is there and a record
whose load has come to its end is gone, or the files and the cache are as they were.
-/

namespace Thumbnails

namespace StoreView

variable {view : StoreView} {id : RecordId} {record : Record} {ids : List RecordId}

theorem load_remove (present : view.records id = some record) :
    (view.remove id).load = view.load.erase id := by
  rw [remove_eq present]

theorem recency_remove (wellFormed : view.WellFormed) (present : view.records id = some record) :
    (view.remove id).recency = view.recency.erase id := by
  rw [remove_eq present, ← wellFormed.erase_recency]
  rfl

/-- Without a record, an order is left with the names that still stand for one. -/
theorem erase_eq_filter (nodup : ids.Nodup) (live : ∀ other ∈ ids, (view.records other).isSome) :
    ids.erase id = ids.filter fun other => ((view.remove id).records other).isSome := by
  rw [nodup.erase_eq_filter]
  apply List.filter_congr
  intro other otherMem
  rw [records_remove]
  by_cases same : other = id
  · simp [same]
  · simp [same, live other otherMem]

theorem filter_live (live : ∀ other ∈ ids, (view.records other).isSome) :
    ids.filter (fun other => (view.records other).isSome) = ids :=
  List.filter_eq_self.mpr live

end StoreView

namespace CacheState

/-- After a cache has forgotten the finished record of a key, if there was one, all others are as
they were, and they are in the same order. -/
structure Forgets (state after : CacheState) (key : ThumbnailKey) : Prop where
  records : ∀ id, after.store.get? id = (state.store.get? id).filter fun record =>
    ¬(record.key = key ∧ record.status.isFinished)
  loadOrder : after.store.loadOrder =
    state.store.loadOrder.filter fun id => (after.store.get? id).isSome
  recencyOrder : after.store.recencyOrder =
    state.store.recencyOrder.filter fun id => (after.store.get? id).isSome
  named : after.store.find? key = none ↔ ∀ id record, state.store.get? id = some record →
    record.key = key → record.status.isFinished = true
  others : ∀ other, other ≠ key → after.store.find? other = state.store.find? other
  rest : after = { state with store := after.store }

variable {state after : CacheState} {view : StoreView} {key : ThumbnailKey} {id : RecordId}
  {record : Record}

/-- A key without a finished record has nothing to be forgotten. -/
theorem Tidy.forgets_of_unfinished (tidy : state.Tidy view)
    (unfinished : ∀ id record, view.names key = some id → view.records id = some record →
      record.status.isFinished = false) : state.Forgets state key := by
  have kept : ∀ id record, view.records id = some record → record.key = key →
      record.status.isFinished = false := by
    intro id record present keyEq
    exact unfinished id record (keyEq ▸ tidy.wellFormed.names_eq present) present
  refine ⟨?_, ?_, ?_, ?_, fun _ _ => rfl, rfl⟩
  · intro id
    rw [tidy.represents.records]
    cases present : view.records id with
    | none => rfl
    | some record =>
        rw [Option.filter_some, if_pos (decide_eq_true _)]
        rintro ⟨keyEq, finished⟩
        cases (kept id record present keyEq).symm.trans finished
  · simp only [tidy.represents.loadOrder_eq, tidy.represents.records]
    exact (StoreView.filter_live fun id => (tidy.wellFormed.mem_load id).mp).symm
  · simp only [tidy.represents.recencyOrder_eq, tidy.represents.records]
    exact (StoreView.filter_live fun id => (tidy.wellFormed.mem_recency id).mp).symm
  · simp only [tidy.represents.names, tidy.represents.records]
    constructor
    · intro unnamed id record present keyEq
      cases (keyEq ▸ tidy.wellFormed.names_eq present).symm.trans unnamed
    · intro finished
      by_contra named
      rcases Option.ne_none_iff_exists'.mp named with ⟨id, namedEq⟩
      rcases (tidy.wellFormed.names_iff key id).mp namedEq with ⟨record, present, keyEq⟩
      cases (finished id record present keyEq).symm.trans (kept id record present keyEq)

/-- Only the record of the key is forgotten, because no other one has that key. -/
theorem Tidy.forgets_of_removed (tidy : state.Tidy view) (removed : after.Tidy (view.remove id))
    (named : view.names key = some id) (present : view.records id = some record)
    (finished : record.status.isFinished = true)
    (rest : after = { state with store := after.store }) : state.Forgets after key := by
  have keyEq := tidy.wellFormed.key_eq named present
  have only : ∀ other found, view.records other = some found → found.key = key → other = id := by
    intro other found otherPresent otherKeyEq
    exact tidy.wellFormed.id_eq_of_key_eq otherPresent present (otherKeyEq.trans keyEq.symm)
  refine ⟨?_, ?_, ?_, ?_, ?_, rest⟩
  · intro other
    rw [removed.represents.records, tidy.represents.records, StoreView.records_remove]
    split
    · rename_i same
      rw [same, present, Option.filter_some, if_neg]
      simp [keyEq, finished]
    · rename_i different
      cases otherPresent : view.records other with
      | none => rfl
      | some found =>
          rw [Option.filter_some, if_pos (decide_eq_true _)]
          rintro ⟨otherKeyEq, _⟩
          exact different (only other found otherPresent otherKeyEq)
  · simp only [removed.represents.loadOrder_eq, tidy.represents.loadOrder_eq,
      removed.represents.records, StoreView.load_remove present]
    exact StoreView.erase_eq_filter tidy.wellFormed.load_nodup fun other =>
      (tidy.wellFormed.mem_load other).mp
  · simp only [removed.represents.recencyOrder_eq, tidy.represents.recencyOrder_eq,
      removed.represents.records, StoreView.recency_remove tidy.wellFormed present]
    exact StoreView.erase_eq_filter tidy.wellFormed.recency_nodup fun other =>
      (tidy.wellFormed.mem_recency other).mp
  · rw [removed.represents.names, StoreView.remove_eq present]
    refine iff_of_true ?_ ?_
    · simp [keyEq]
    · intro other found otherPresent otherKeyEq
      rw [tidy.represents.records] at otherPresent
      cases only other found otherPresent otherKeyEq
      cases present.symm.trans otherPresent
      exact finished
  · intro other different
    rw [removed.represents.names, tidy.represents.names, StoreView.remove_eq present]
    simp [keyEq, different]

theorem Tidy.forgets (tidy : state.Tidy view) (key : ThumbnailKey) :
    state.Forgets (state.forgetFinished key).2 key := by
  rcases tidy.perform (.forgetFinished key) with ⟨next, effect, nextTidy⟩
  change state.Effect view _ _ (state.forgetFinished key).2 next at effect
  change (state.forgetFinished key).2.Tidy next at nextTidy
  generalize (state.forgetFinished key).2 = after at effect nextTidy
  generalize (state.perform (.forgetFinished key)).1 = answer at effect
  cases effect with
  | nothingFinished unfinished => exact tidy.forgets_of_unfinished unfinished
  | forgotten named present finished =>
      exact tidy.forgets_of_removed nextTidy named present finished rfl

end CacheState

namespace Session

variable {session : Session} {key : ThumbnailKey} {source thumbnail : Image}
  {generator : Generator} {view : StoreView}

theorem target?_of_running (running : session.state.shuttingDown = false)
    (visible : source.isEmpty = false) :
    session.target? key source = some (key.thumbnailPath session.state.directory) := by
  simp [target?, running, visible]

variable [ImageLibrary]

/-- A thumbnail that can be recreated: it is asked for while the cache runs, with a source that has
pixels, the generator makes it, and it is saved. -/
structure Makes (session : Session) (key : ThumbnailKey) (source : Image) (generator : Generator)
    (thumbnail : Image) : Prop where
  running : session.state.shuttingDown = false
  visible : source.isEmpty = false
  generated : generator.generate source session.state.maxSize = .done thumbnail
  saved : (session.files.saveThumbnail (key.thumbnailPath session.state.directory) thumbnail).1 =
    .ok ()

/-- How a session is left when a thumbnail was recreated. -/
structure Recreated (session next : Session) (key : ThumbnailKey) (thumbnail : Image) : Prop where
  /-- The file is the only change on disk. -/
  placed : ∃ data location, ImageLibrary.encode thumbnail = .ok data ∧
    session.files.Admits (key.thumbnailPath session.state.directory) location ∧
    next.files = { session.files.put location (.file (.bytes data)) with
      tokens := next.files.tokens } ∧
    next.files.nodeAt? (key.thumbnailPath session.state.directory) = some (.file (.bytes data))
  forgets : session.state.Forgets next.state key
  rest : next = { session with state := next.state, files := next.files }
  /-- Every job of the key for this directory finds the thumbnail, and the decoder is not used. -/
  reused : thumbnail.Survives → ∀ job : LoadJob, job.key = key →
    job.directory = session.state.directory →
    (∀ decoder, job.produce decoder next.files = (.done thumbnail, next.files)) ∧
      ∀ setup (later : Session), later.files = next.files →
        later.load setup job = later.post setup (.ofImage job.id thumbnail)
  /-- Unless a load of the key is under way, the next request makes such a job. -/
  reloaded : next.state.store.find? key = none → ∀ generator subscriber,
    ∃ wake queued job taken, next.state.request key generator subscriber = (.queued, wake, queued) ∧
      queued.nextJob = (some (.load job), taken) ∧ job.key = key ∧
      job.directory = session.state.directory ∧
      (taken.complete (.ofImage job.id thumbnail)).1 =
        some ⟨[subscriber], ⟨.loaded, some thumbnail⟩⟩

/-- To recreate a thumbnail is all or nothing. -/
structure Recreates (session : Session) (key : ThumbnailKey) (source : Image)
    (generator : Generator) : Prop where
  /-- Each stage of the save may fail. -/
  saved_iff : ∀ thumbnail,
    (session.files.saveThumbnail (key.thumbnailPath session.state.directory) thumbnail).1 =
        .ok () ↔
      session.files.Commits (key.thumbnailPath session.state.directory) thumbnail
  answer : (session.recreate key source generator).1 = true ↔
    ∃ thumbnail, session.Makes key source generator thumbnail
  done : ∀ thumbnail, session.Makes key source generator thumbnail →
    session.Recreated (session.recreate key source generator).2 key thumbnail
  /-- Apart from the count of names that were tried, nothing is left of a failure. -/
  failed : (session.recreate key source generator).1 = false → ∃ tokens,
    (session.recreate key source generator).2 =
      { session with files := { session.files with tokens } }

theorem Makes.exists_saved (makes : session.Makes key source generator thumbnail) :
    ∃ next, session.files.saveThumbnail (key.thumbnailPath session.state.directory) thumbnail =
      (.ok (), next) :=
  ⟨_, Prod.ext makes.saved rfl⟩

theorem recreate_of_makes (makes : session.Makes key source generator thumbnail) :
    session.recreate key source generator = (true, { session with
      state := (session.state.forgetFinished key).2
      files := (session.files.saveThumbnail (key.thumbnailPath session.state.directory)
        thumbnail).2 }) := by
  have target : session.target? key source = _ := target?_of_running makes.running makes.visible
  rcases makes.exists_saved with ⟨next, saving⟩
  simp only [recreate, target, writeThumbnail_eq, makes.generated, saving, Except.toBool]

/-- At whatever point it fails, nothing is left of it. -/
theorem recreate_of_not_makes
    (unmade : ∀ thumbnail, ¬session.Makes key source generator thumbnail) :
    ∃ tokens, session.recreate key source generator =
      (false, { session with files := { session.files with tokens } }) := by
  rw [recreate, target?]
  split
  · exact ⟨session.files.tokens, rfl⟩
  · rename_i path targetEq
    split at targetEq
    · cases targetEq
    · rename_i usable
      cases targetEq
      rw [Bool.not_eq_true, Bool.or_eq_false_iff] at usable
      rw [writeThumbnail_eq]
      cases generated : generator.generate source session.state.maxSize with
      | failed error => exact ⟨session.files.tokens, rfl⟩
      | crashed => exact ⟨session.files.tokens, rfl⟩
      | done thumbnail =>
          have unsaved : (session.files.saveThumbnail
              (key.thumbnailPath session.state.directory) thumbnail).1 ≠ .ok () :=
            fun saved => unmade thumbnail ⟨usable.2, usable.1, generated, saved⟩
          rcases FileSystem.exists_error_of_unsaved unsaved with ⟨error, tokens, failed⟩
          exact ⟨tokens, by simp only [failed, Except.toBool]⟩

/-- A thumbnail that lies on disk is found by every job for it. -/
theorem reused_of_loads {files : FileSystem}
    (loads : files.loadThumbnail (key.thumbnailPath session.state.directory) = .ok thumbnail)
    {job : LoadJob} (keyEq : job.key = key)
    (directoryEq : job.directory = session.state.directory) :
    (∀ decoder, job.produce decoder files = (.done thumbnail, files)) ∧
      ∀ setup (later : Session), later.files = files →
        later.load setup job = later.post setup (.ofImage job.id thumbnail) := by
  have reuses : job.reuse? files = some (.done thumbnail) := by
    rw [LoadJob.reuse?, LoadJob.thumbnailPath, keyEq, directoryEq, loads]
  refine ⟨?_, ?_⟩
  · intro decoder
    rw [LoadJob.produce_eq, reuses]
  · intro setup later filesEq
    exact load_of_reuse (by rw [filesEq, reuses])

theorem recreated_of_makes (tidy : session.state.Tidy view)
    (makes : session.Makes key source generator thumbnail) :
    session.Recreated (session.recreate key source generator).2 key thumbnail := by
  rcases makes.exists_saved with ⟨next, saving⟩
  rw [recreate_of_makes makes, saving]
  rcases FileSystem.exists_put_of_saved saving with ⟨data, location, placed⟩
  have forgets := tidy.forgets key
  rcases tidy.perform (.forgetFinished key) with ⟨nextView, _, nextTidy⟩
  change (session.state.forgetFinished key).2.Tidy nextView at nextTidy
  refine ⟨⟨data, location, placed⟩, forgets, rfl, ?_, ?_⟩
  · intro survives job keyEq directoryEq
    exact reused_of_loads (FileSystem.loadThumbnail_saveThumbnail survives saving) keyEq
      directoryEq
  · intro unnamed otherGenerator subscriber
    have running : (session.state.forgetFinished key).2.shuttingDown = false := by
      rw [forgets.rest]
      exact makes.running
    have sameDirectory : (session.state.forgetFinished key).2.directory =
        session.state.directory := by
      rw [forgets.rest]
    rcases nextTidy.redelivers running unnamed otherGenerator subscriber thumbnail with
      ⟨wake, queued, job, taken, requestEq, nextJobEq, keyEq, directoryEq, told⟩
    exact ⟨wake, queued, job, taken, requestEq, nextJobEq, keyEq,
      directoryEq.trans sameDirectory, told⟩

theorem recreates_of_tidy (tidy : session.state.Tidy view) (key : ThumbnailKey) (source : Image)
    (generator : Generator) : session.Recreates key source generator := by
  refine ⟨fun _ => FileSystem.saveThumbnail_fst_eq_ok_iff, ?_,
    fun thumbnail makes => recreated_of_makes tidy makes, ?_⟩
  · constructor
    · intro answered
      by_contra unmade
      rcases recreate_of_not_makes (not_exists.mp unmade) with ⟨tokens, result⟩
      rw [result] at answered
      cases answered
    · rintro ⟨thumbnail, makes⟩
      rw [recreate_of_makes makes]
  · intro answered
    have unmade : ∀ thumbnail, ¬session.Makes key source generator thumbnail := by
      intro thumbnail makes
      rw [recreate_of_makes makes] at answered
      cases answered
    rcases recreate_of_not_makes unmade with ⟨tokens, result⟩
    exact ⟨tokens, by rw [result]⟩

/-- Whatever happened to a cache before, and whatever is on disk, recreating a thumbnail is all or
nothing. -/
theorem recreates_after (config : Config) (directory : Path) (calls : List CacheCall)
    (session : Session) (key : ThumbnailKey) (source : Image) (generator : Generator) :
    { session with state := (CacheState.new config directory).after calls }.Recreates key source
      generator := by
  rcases CacheState.tidy_after config directory calls with ⟨view, tidy⟩
  exact recreates_of_tidy tidy key source generator

end Session

end Thumbnails
