import Thumbnails.Proofs.Cache.Loading
import Thumbnails.Proofs.Cache.Recreation

/-!
# Ensuring

To ensure a thumbnail is to make it unless its file is there. That disturbs nothing
(`Session.EnsuresQuietly`): what is at the place of the thumbnail stays, without a call of the
generator, a new file is put there in one piece or not at all, and the state in memory is left as it
is.

The answer ought to say whether a file is there in the end (`Session.EnsuresTruly`). It does, unless
a directory was there: what is looked for is anything at all, so a directory passes for a thumbnail
(`Session.ensuresTruly_iff`).
-/

namespace Thumbnails

namespace Session

open CacheState (letterPage)

/-- What is at the place of a key's thumbnail. -/
def thumbnailAt? (session : Session) (key : ThumbnailKey) : Option Node :=
  session.files.nodeAt? (key.thumbnailPath session.state.directory)

theorem existsAt_eq_isSome {session : Session} {key : ThumbnailKey} :
    session.files.existsAt (key.thumbnailPath session.state.directory) =
      (session.thumbnailAt? key).isSome := by
  rw [Bool.eq_iff_iff]
  exact FileSystem.existsAt_iff

section

variable [ImageLibrary]

/-- The answer and the session afterwards, with the calls of the generator. -/
def attemptEnsure (session : Session) (key : ThumbnailKey) (source : Image)
    (generator : Generator) : (Bool × Session) × List ForeignCall :=
  (session.ensureWith key source fun source box =>
    (ForeignCall.generate source box).noted (generator.generate source box)).run []

/-- Ensuring a thumbnail changes nothing but the file that is missing. -/
structure EnsuresQuietly (session : Session) (key : ThumbnailKey) (source : Image)
    (generator : Generator) : Prop where
  /-- Taking notes makes no difference. -/
  noted : (session.attemptEnsure key source generator).1 = session.ensure key source generator
  /-- What is there is left alone, and the generator is not called. -/
  existing : (session.thumbnailAt? key).isSome →
    session.attemptEnsure key source generator = ((true, session), [])
  /-- Where nothing is, the generator is called once. -/
  called : session.thumbnailAt? key = none →
    (session.attemptEnsure key source generator).2 = [.generate source session.state.maxSize]
  /-- A thumbnail is made if it can be generated and saved. -/
  made_iff : session.thumbnailAt? key = none →
    ((session.attemptEnsure key source generator).1.1 = true ↔ ∃ thumbnail files,
      generator.generate source session.state.maxSize = .done thumbnail ∧
      session.files.saveThumbnail (key.thumbnailPath session.state.directory) thumbnail =
        (.ok (), files))
  /-- A new file holds just what was generated, and it is the only change on disk. -/
  made : ∀ next calls, session.thumbnailAt? key = none →
    session.attemptEnsure key source generator = ((true, next), calls) →
      ∃ thumbnail data location,
        generator.generate source session.state.maxSize = .done thumbnail ∧
        ImageLibrary.encode thumbnail = .ok data ∧
        session.files.Admits (key.thumbnailPath session.state.directory) location ∧
        next.files = { session.files.put location (.file (.bytes data)) with
          tokens := next.files.tokens } ∧
        next.thumbnailAt? key = some (.file (.bytes data))
  /-- Apart from the count of names that were tried, a failure leaves the files as they were. -/
  failed : ∀ next calls, session.attemptEnsure key source generator = ((false, next), calls) →
    next.files = { session.files with tokens := next.files.tokens }
  /-- The state in memory does not change in any case. -/
  rest : ∀ answer next calls,
    session.attemptEnsure key source generator = ((answer, next), calls) →
      next = { session with files := next.files }

/-- What is promised of ensuring a thumbnail. -/
structure EnsuresTruly (session : Session) (key : ThumbnailKey) (source : Image)
    (generator : Generator) : Prop extends session.EnsuresQuietly key source generator where
  /-- The answer says whether a file is there in the end. -/
  answer : (session.attemptEnsure key source generator).1.1 = true ↔ ∃ content,
    (session.attemptEnsure key source generator).1.2.thumbnailAt? key = some (.file content)

variable {session : Session} {key : ThumbnailKey} {source : Image} {generator : Generator}

/-- Whatever is at the place of a thumbnail, it is left there and nothing is generated. -/
theorem attemptEnsure_of_occupied (running : session.state.shuttingDown = false)
    (visible : source.isEmpty = false) (occupied : (session.thumbnailAt? key).isSome)
    (generator : Generator) :
    session.attemptEnsure key source generator = ((true, session), []) := by
  simp only [attemptEnsure, ensureWith, target?_of_running running visible,
    existsAt_eq_isSome, occupied, if_true]
  rfl

/-- Where nothing is, what the generator gives is saved. -/
theorem attemptEnsure_of_vacant (running : session.state.shuttingDown = false)
    (visible : source.isEmpty = false) (vacant : session.thumbnailAt? key = none)
    (generator : Generator) :
    session.attemptEnsure key source generator =
      (session.writeThumbnail (key.thumbnailPath session.state.directory) source generator,
        [.generate source session.state.maxSize]) := by
  simp only [attemptEnsure, ensureWith, target?_of_running running visible, existsAt_eq_isSome,
    vacant, Option.isSome_none, Bool.false_eq_true, if_false, writeThumbnailWith,
    StateT.run_bind, ForeignCall.run_noted, pure_bind, writeThumbnail_eq]
  cases generator.generate source session.state.maxSize <;> rfl

/-- The ways in which ensuring a thumbnail may end. -/
inductive EnsureEffect (session : Session) (key : ThumbnailKey) (source : Image)
    (generator : Generator) : (Bool × Session) × List ForeignCall → Prop
  | found (occupied : (session.thumbnailAt? key).isSome) :
    EnsureEffect session key source generator ((true, session), [])
  | made {thumbnail : Image} {data : List UInt8} {location : Location} {tokens : Nat}
      (vacant : session.thumbnailAt? key = none)
      (generated : generator.generate source session.state.maxSize = .done thumbnail)
      (saving : session.files.saveThumbnail (key.thumbnailPath session.state.directory)
        thumbnail = (.ok (), { session.files.put location (.file (.bytes data)) with tokens }))
      (encoded : ImageLibrary.encode thumbnail = .ok data)
      (admits : session.files.Admits (key.thumbnailPath session.state.directory) location) :
    EnsureEffect session key source generator
      ((true, { session with
        files := { session.files.put location (.file (.bytes data)) with tokens } }),
        [.generate source session.state.maxSize])
  | unmade (tokens : Nat) (vacant : session.thumbnailAt? key = none)
      (unsaved : ∀ thumbnail next,
        generator.generate source session.state.maxSize = .done thumbnail →
          session.files.saveThumbnail (key.thumbnailPath session.state.directory) thumbnail ≠
            (.ok (), next)) :
    EnsureEffect session key source generator
      ((false, { session with files := { session.files with tokens } }),
        [.generate source session.state.maxSize])

theorem effect_attemptEnsure (running : session.state.shuttingDown = false)
    (visible : source.isEmpty = false) (key : ThumbnailKey) (generator : Generator) :
    session.EnsureEffect key source generator
      (session.attemptEnsure key source generator) := by
  cases existing : session.thumbnailAt? key with
  | some node =>
      have occupied : (session.thumbnailAt? key).isSome := by simp [existing]
      rw [attemptEnsure_of_occupied running visible occupied]
      exact .found occupied
  | none =>
      rw [attemptEnsure_of_vacant running visible existing, writeThumbnail_eq]
      cases generated : generator.generate source session.state.maxSize with
      | failed error => exact .unmade session.files.tokens existing (by simp [generated])
      | crashed => exact .unmade session.files.tokens existing (by simp [generated])
      | done thumbnail =>
          have effect := session.files.effect_saveThumbnail
            (key.thumbnailPath session.state.directory) thumbnail
          rcases saving : session.files.saveThumbnail (key.thumbnailPath session.state.directory)
            thumbnail with ⟨result, files⟩
          rw [saving] at effect
          simp only [saving]
          have unsaved : result ≠ .ok () → ∀ other next,
              generator.generate source session.state.maxSize = .done other →
              session.files.saveThumbnail (key.thumbnailPath session.state.directory) other ≠
                (.ok (), next) := by
            intro failed other next otherGenerated saved
            cases generated.symm.trans otherGenerated
            cases saving.symm.trans saved
            exact failed rfl
          cases effect with
          | unencoded => exact .unmade session.files.tokens existing (unsaved nofun)
          | unsaved => exact .unmade _ existing (unsaved nofun)
          | saved encoded _ _ admits => exact .made existing generated saving encoded admits

/-- What ensuring a thumbnail gives does not depend on the notes. -/
theorem attemptEnsure_fst (running : session.state.shuttingDown = false)
    (visible : source.isEmpty = false) (key : ThumbnailKey) (generator : Generator) :
    (session.attemptEnsure key source generator).1 = session.ensure key source generator := by
  simp only [ensure_eq, target?_of_running running visible, existsAt_eq_isSome]
  cases existing : session.thumbnailAt? key with
  | some node =>
      rw [attemptEnsure_of_occupied running visible (by simp [existing]), Option.isSome_some,
        if_pos rfl]
  | none =>
      rw [attemptEnsure_of_vacant running visible existing, Option.isSome_none,
        if_neg Bool.false_ne_true]

theorem ensuresQuietly (running : session.state.shuttingDown = false)
    (visible : source.isEmpty = false) (key : ThumbnailKey) (generator : Generator) :
    session.EnsuresQuietly key source generator := by
  have effect := effect_attemptEnsure running visible key generator
  refine ⟨attemptEnsure_fst running visible key generator,
    fun occupied => attemptEnsure_of_occupied running visible occupied generator, ?_, ?_, ?_, ?_,
    ?_⟩
  · intro vacant
    rw [attemptEnsure_of_vacant running visible vacant]
  · intro vacant
    generalize session.attemptEnsure key source generator = attempt at effect ⊢
    cases effect with
    | found occupied => simp [vacant] at occupied
    | made _ generated saving => exact iff_of_true rfl ⟨_, _, generated, saving⟩
    | unmade _ _ unsaved =>
        refine iff_of_false Bool.false_ne_true ?_
        rintro ⟨thumbnail, files, generated, saving⟩
        exact unsaved thumbnail files generated saving
  · intro next calls vacant attempted
    rw [attempted] at effect
    cases effect with
    | found occupied => simp [vacant] at occupied
    | made _ generated _ encoded admits =>
        exact ⟨_, _, _, generated, encoded, admits, rfl, admits.nodeAt?_of_placed rfl⟩
  · intro next calls attempted
    rw [attempted] at effect
    cases effect with
    | unmade => rfl
  · intro answer next calls attempted
    rw [attempted] at effect
    cases effect <;> rfl

/-- A directory would be answered for as a thumbnail. -/
theorem EnsuresTruly.uncovered (truly : session.EnsuresTruly key source generator) :
    session.thumbnailAt? key ≠ some .directory := by
  intro covered
  have answer := truly.answer
  rw [truly.existing (by simp [covered])] at answer
  rcases answer.mp rfl with ⟨content, present⟩
  cases covered.symm.trans present

/-- Ensuring a thumbnail disturbs nothing, and its answer is true unless a directory is in the place
of the thumbnail. -/
theorem ensuresTruly_iff (running : session.state.shuttingDown = false)
    (visible : source.isEmpty = false) (key : ThumbnailKey) (generator : Generator) :
    session.EnsuresQuietly key source generator ∧
      (session.EnsuresTruly key source generator ↔
        session.thumbnailAt? key ≠ some .directory) := by
  have quietly := ensuresQuietly running visible key generator
  refine ⟨quietly, ?_, ?_⟩
  · intro truly
    exact truly.uncovered
  · intro uncovered
    refine ⟨quietly, ?_⟩
    have effect := effect_attemptEnsure running visible key generator
    generalize session.attemptEnsure key source generator = attempt at effect ⊢
    cases effect with
    | found occupied =>
        refine iff_of_true rfl ?_
        rcases Option.isSome_iff_exists.mp occupied with ⟨_ | content, present⟩
        · exact absurd present uncovered
        · exact ⟨content, present⟩
    | made _ _ _ _ admits =>
        exact iff_of_true rfl ⟨_, admits.nodeAt?_of_placed rfl⟩
    | unmade _ vacant =>
        refine iff_of_false Bool.false_ne_true ?_
        rintro ⟨content, present⟩
        rw [thumbnailAt?, (FileSystem.sameNodes_tokens _ _).nodeAt?_eq] at present
        cases vacant.symm.trans present

end

attribute [local instance] ImageLibrary.plain

theorem ensuresTruly_narrowSession :
    narrowSession.state.shuttingDown = false ∧ grayImage.isEmpty = false ∧
      narrowSession.EnsuresTruly (letterPage 0x61) grayImage
        (.constant (.done grayImage)) := by
  refine ⟨rfl, by decide +kernel, ?_⟩
  exact (ensuresTruly_iff rfl (by decide +kernel) (letterPage 0x61) _).2.mpr
    (by decide +kernel)

/-- A cache with a directory in the place of a thumbnail. -/
def coveredSession : Session :=
  (narrowSession.applyEdit ((letterPage 0x61).thumbnailPath ⟨[0x74]⟩) .createDirectory).2

/-- A directory passes for a thumbnail. -/
theorem not_ensuresTruly_coveredSession :
    coveredSession.state.shuttingDown = false ∧ grayImage.isEmpty = false ∧
      coveredSession.thumbnailAt? (letterPage 0x61) = some .directory ∧
      coveredSession.ensure (letterPage 0x61) grayImage (.constant (.done grayImage)) =
        (true, coveredSession) ∧
      ¬coveredSession.EnsuresTruly (letterPage 0x61) grayImage
        (.constant (.done grayImage)) := by
  have running : coveredSession.state.shuttingDown = false := by decide +kernel
  have visible : grayImage.isEmpty = false := by decide +kernel
  have covered : coveredSession.thumbnailAt? (letterPage 0x61) = some .directory := by
    decide +kernel
  refine ⟨running, visible, covered, ?_, fun truly => truly.uncovered covered⟩
  rw [← attemptEnsure_fst running visible,
    attemptEnsure_of_occupied running visible (by rw [covered]; rfl)]

end Session

end Thumbnails
