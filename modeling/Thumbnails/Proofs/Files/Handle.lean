import Thumbnails.Persist
import Thumbnails.Proofs.Files.Place

/-!
# Handles

A handle that was just started has an empty temporary file, at a place where nothing was. From then
on the handle is open (`WriteHandle.Open`), and every operation on it is a change at one or two
places: writing changes what the temporary holds, giving up erases it, and a commit that succeeds
puts what it holds at the place of the target. Saving a thumbnail is one handle from its start to
its end, and so it changes the place of the thumbnail or nothing
(`FileSystem.effect_saveThumbnail`).
-/

namespace Thumbnails

namespace FileSystem

/-- The same nodes at the same places. How many temporary names were tried is not compared. -/
structure SameNodes (other files : FileSystem) : Prop where
  workingDirectory : other.workingDirectory = files.workingDirectory
  node? (location : Location) : other.node? location = files.node? location

variable {files other next : FileSystem} {location : Location} {path source target : Path}
  {content : Content}

theorem SameNodes.extends (same : other.SameNodes files) : other.Extends files :=
  ⟨same.workingDirectory, fun isDirectory => (same.node? _).trans isDirectory⟩

theorem SameNodes.symm (same : other.SameNodes files) : files.SameNodes other :=
  ⟨same.workingDirectory.symm, fun location => (same.node? location).symm⟩

theorem SameNodes.place?_eq (same : other.SameNodes files) : other.place? = files.place? :=
  same.extends.place?_eq same.symm.extends

theorem SameNodes.nodeAt?_eq (same : other.SameNodes files) : other.nodeAt? = files.nodeAt? := by
  funext path
  apply Option.ext
  intro node
  simp only [nodeAt?_eq_some_iff, same.place?_eq, same.node?]

theorem sameNodes_tokens (files : FileSystem) (tokens : Nat) :
    ({ files with tokens } : FileSystem).SameNodes files :=
  ⟨rfl, fun _ => rfl⟩

@[simp]
theorem node?_root (files : FileSystem) : files.node? [] = some .directory := by
  simp [node?]

theorem ne_root_of_place? (named : path.EndsInName) (place : files.place? path = some location) :
    location ≠ [] := by
  rcases (place?_eq_some_iff_destination named).mp place with ⟨reached, _, _, rfl⟩
  simp [Destination.location]

theorem ne_root_of_not_isDirectory (notDirectory : ¬files.IsDirectory location) :
    location ≠ [] := by
  rintro rfl
  exact notDirectory (node?_root files)

theorem node?_put_of_ne_root (notRoot : location ≠ []) (node : Node) (place : Location) :
    (files.put location node).node? place =
      if place = location then some node else files.node? place := by
  rw [node?_put]
  split
  · rename_i root
    subst root
    simp [notRoot.symm]
  · rfl

theorem node?_erase_of_ne_root (notRoot : location ≠ []) (place : Location) :
    (files.erase location).node? place =
      if place = location then none else files.node? place := by
  rw [node?_erase]
  split
  · rename_i root
    subst root
    simp [notRoot.symm]
  · rfl

/-- A file that is put where no directory is shows on paths that lead there, and on no others. -/
theorem nodeAt?_put_file (notDirectory : ¬files.IsDirectory location) (content : Content)
    (path : Path) : (files.put location (.file content)).nodeAt? path =
      if files.place? path = some location then some (.file content) else files.nodeAt? path := by
  have places : (files.put location (.file content)).place? = files.place? :=
    place?_put_file notDirectory
  rcases place : files.place? path with _ | reached
  · rw [nodeAt?_of_no_place (places ▸ place), nodeAt?_of_no_place place]
    simp
  · rw [nodeAt?_of_place? (places ▸ place), nodeAt?_of_place? place,
      node?_put_of_ne_root (ne_root_of_not_isDirectory notDirectory)]
    simp

theorem put_put (files : FileSystem) (location : Location) (first second : Node) :
    (files.put location first).put location second = files.put location second := by
  simp [put]

/-- Where nothing was, nothing is left of what was put there and erased. -/
theorem erase_put (free : files.node? location = none) (node : Node) :
    (files.put location node).erase location = files := by
  have absent : ∀ entry ∈ files.entries, decide (entry.1 ≠ location) = true := by
    intro entry entryMem
    rw [decide_eq_true_eq]
    rintro rfl
    rw [node?] at free
    split at free
    · cases free
    · simpa using List.lookup_eq_none_iff.mp free entry entryMem
  simp only [put, erase, List.filter_cons, ne_eq, not_true_eq_false, decide_false,
    Bool.false_eq_true, if_false, List.filter_filter, Bool.and_self]
  rw [List.filter_eq_self.mpr absent]

/-- A new file is made at the place of its path, where nothing may be. -/
theorem createNew_eq_ok_iff (named : path.EndsInName) :
    files.createNew path = .ok (location, next) ↔ files.place? path = some location ∧
      files.node? location = none ∧ next = files.put location (.file (.bytes [])) := by
  simp only [createNew, bind_eq_ok_iff, exists_unit_iff, throw_bind, ite_throw_eq_ok_iff,
    place?_eq_some_iff_destination named, pure, Except.pure, Except.ok.injEq, Prod.mk.injEq]
  constructor
  · rintro ⟨reached, found, short, free, rfl, rfl⟩
    exact ⟨⟨reached, found, short, rfl⟩, by simpa using free, rfl⟩
  · rintro ⟨⟨reached, found, short, rfl⟩, free, rfl⟩
    exact ⟨reached, found, short, by simp [free], rfl, rfl⟩

/-- A path that a file can be moved to: it ends in a name, and no directory is at its place. -/
structure Admits (files : FileSystem) (path : Path) (location : Location) : Prop where
  named : path.EndsInName
  place : files.place? path = some location
  free : ¬files.IsDirectory location

theorem Admits.extend (admits : files.Admits path location) (wider : next.Extends files)
    (narrower : files.Extends next) : next.Admits path location :=
  ⟨admits.named, wider.place? admits.place, fun isDirectory =>
    admits.free (narrower.directory isDirectory)⟩

theorem Admits.nodeAt?_of_placed (admits : files.Admits path location)
    (placed : next = { files.put location (.file content) with tokens := next.tokens }) :
    next.nodeAt? path = some (.file content) := by
  rw [placed, (sameNodes_tokens _ _).nodeAt?_eq, nodeAt?_put_file admits.free, if_pos admits.place]

/-- A file is moved to the place of its new path, if that admits it. -/
theorem rename_eq_ok_iff (named : source.EndsInName) (place : files.place? source = some location)
    (present : files.node? location = some (.file content)) :
    files.rename source target = .ok next ↔ ∃ reached, files.Admits target reached ∧
      next = (files.erase location).put reached (.file content) := by
  rcases (place?_eq_some_iff_destination named).mp place with ⟨origin, foundOrigin, _, rfl⟩
  simp only [rename, bind_eq_ok_iff, exists_unit_iff, throw_bind, ite_throw_eq_ok_iff, foundOrigin,
    present, Except.ok.injEq, exists_eq_left', pure, Except.pure]
  constructor
  · rintro ⟨reached, found, isNamed, short, flat, free, rfl⟩
    have endsInName := endsInName_of_destination found (by simpa using isNamed)
      (by simpa using flat)
    exact ⟨reached.location, ⟨endsInName,
      (place?_eq_some_iff_destination endsInName).mpr ⟨reached, found, short, rfl⟩, free⟩, rfl⟩
  · rintro ⟨_, admits, rfl⟩
    rcases (place?_eq_some_iff_destination admits.named).mp admits.place with
      ⟨reached, found, short, rfl⟩
    rcases (destination_eq_ok_iff admits.named).mp found with ⟨_, _, last, flat⟩
    have isNamed : reached.isNamed = true := by
      simpa [Destination.isNamed, last, and_assoc, Path.EndsInName] using admits.named
    exact ⟨reached, found, by simp [isNamed], short, by simp [flat], admits.free, rfl⟩

/-- A new directory is made where nothing was. -/
theorem createDirectory_eq_ok (made : files.createDirectory path = .ok next) :
    ∃ location, files.node? location = none ∧ next = files.put location .directory := by
  simp only [createDirectory, bind_eq_ok_iff, exists_unit_iff, throw_bind, ite_throw_eq_ok_iff,
    pure, Except.pure, Except.ok.injEq] at made
  rcases made with ⟨reached, _, _, _, free, rfl⟩
  exact ⟨reached.location, by simpa using free, rfl⟩

end FileSystem

namespace WriteHandle

open FileSystem

variable {files next : FileSystem} {handle : WriteHandle} {target : Path}
  {data more : List UInt8} {location : Location}

/-- A handle that may be written to: its temporary file is there and holds what was written. -/
structure Open (handle : WriteHandle) (files : FileSystem) (data : List UInt8) : Prop where
  named : handle.temporary.EndsInName
  place : files.place? handle.temporary = some handle.location
  present : files.node? handle.location = some (.file (.bytes data))

/-- The name of a temporary file does not end in a separator, or in dots alone. -/
theorem endsInName_temporary (directory target : Path) (number : Nat) :
    (directory.child (temporaryName target number)).EndsInName := by
  have suffix : Utf8.encode ".tmp".toList = [dot, 0x74, 0x6d, 0x70] := by decide
  have bytes : (directory.child (temporaryName target number)).bytes =
      directory.lead ++ Utf8.encode ('.' :: Utf8.decodeLossy (target.fileName?.getD []) ++
        '.' :: token number) ++ [dot, 0x74, 0x6d, 0x70] := by
    rw [Path.bytes_child, temporaryName, Utf8.encode, List.flatMap_append, ← Utf8.encode,
      ← Utf8.encode, suffix, List.append_assoc]
  rw [Path.EndsInName, Path.lastSegment, bytes, segments_append_of_no_slash _ (by decide),
    List.getLastD_concat]
  refine ⟨by simp, ?_, ?_⟩
  all_goals
    intro short
    have length := congrArg List.length short
    simp at length

theorem createTemporary_eq_ok {attempts : Nat}
    (created : createTemporary files target attempts = .ok (handle, next)) :
    ∃ tokens, handle.target = target ∧ handle.temporary.EndsInName ∧
      files.place? handle.temporary = some handle.location ∧ files.node? handle.location = none ∧
      next = { files.put handle.location (.file (.bytes [])) with tokens } := by
  induction attempts generalizing files with
  | zero => cases created
  | succ attempts inductionHypothesis =>
    have same := files.sameNodes_tokens (files.tokens + 1)
    simp only [createTemporary] at created
    split at created
    · rename_i location made new
      cases created
      have named := endsInName_temporary (temporaryDirectory target) target files.tokens
      rcases (createNew_eq_ok_iff named).mp new with ⟨place, free, rfl⟩
      exact ⟨files.tokens + 1, rfl, named, same.place?_eq ▸ place, free, rfl⟩
    · rcases inductionHypothesis created with ⟨tokens, targetEq, named, place, free, rfl⟩
      exact ⟨tokens, targetEq, named, same.place?_eq ▸ place, free, rfl⟩
    · cases created
    · cases created

/-- A handle is started with an empty temporary file at a place where nothing was. -/
theorem start_eq_ok (started : start files target = .ok (handle, next)) :
    ∃ tokens, handle.target = target ∧ handle.temporary.EndsInName ∧
      files.place? handle.temporary = some handle.location ∧ files.node? handle.location = none ∧
      next = { files.put handle.location (.file (.bytes [])) with tokens } := by
  unfold start at started
  split at started
  · rename_i begun created
    cases started
    exact createTemporary_eq_ok created
  · cases started

theorem open_of_start (started : start files target = .ok (handle, next)) :
    handle.Open next [] := by
  rcases start_eq_ok started with ⟨tokens, _, named, place, free, rfl⟩
  have notDirectory : ¬files.IsDirectory handle.location := by simp [IsDirectory, free]
  refine ⟨named, ?_, ?_⟩
  · rw [(sameNodes_tokens _ _).place?_eq, place?_put_file notDirectory, place]
  · rw [(sameNodes_tokens _ _).node?, node?_put_of_ne_root (ne_root_of_place? named place),
      if_pos rfl]

/-- Starting a handle makes its temporary file and changes nothing else. -/
theorem node?_of_start (started : start files target = .ok (handle, next)) (place : Location) :
    next.node? place =
      if place = handle.location then some (.file (.bytes [])) else files.node? place := by
  rcases start_eq_ok started with ⟨tokens, _, named, reached, _, rfl⟩
  rw [(sameNodes_tokens _ _).node?, node?_put_of_ne_root (ne_root_of_place? named reached)]

/-- Starting a handle leaves the directories as they are. -/
theorem extends_of_start (started : start files target = .ok (handle, next)) :
    next.Extends files ∧ files.Extends next := by
  rcases start_eq_ok started with ⟨tokens, _, _, _, free, rfl⟩
  have notDirectory : ¬files.IsDirectory handle.location := by simp [IsDirectory, free]
  have same := sameNodes_tokens (files.put handle.location (.file (.bytes []))) tokens
  exact ⟨same.extends.trans (extends_put fun isDirectory => absurd isDirectory notDirectory),
    extends_of_put_file.trans same.symm.extends⟩

namespace Open

variable (isOpen : handle.Open files data)

include isOpen

/-- A handle stays open while its place and what it holds stay the same. -/
theorem congr {other : FileSystem} (places : other.place? = files.place?)
    (node : other.node? handle.location = files.node? handle.location) :
    handle.Open other data :=
  ⟨isOpen.named, by rw [places, isOpen.place], by rw [node, isOpen.present]⟩

theorem location_ne_root : handle.location ≠ [] :=
  ne_root_of_place? isOpen.named isOpen.place

theorem not_isDirectory : ¬files.IsDirectory handle.location := by
  simp [IsDirectory, isOpen.present]

theorem write_eq : handle.write files more =
    files.put handle.location (.file (.bytes (data ++ more))) := by
  simp [write, isOpen.present]

theorem open_write : handle.Open (handle.write files more) (data ++ more) := by
  refine ⟨isOpen.named, ?_, ?_⟩
  · rw [isOpen.write_eq, place?_put_file isOpen.not_isDirectory, isOpen.place]
  · rw [isOpen.write_eq, node?_put_of_ne_root isOpen.location_ne_root, if_pos rfl]

theorem abort_eq : handle.abort files = files.erase handle.location := by
  simp [abort, find_eq_ok_iff.mpr ⟨isOpen.place, isOpen.present⟩]

/-- A commit moves what was written to the place of the target, or it erases it and changes
nothing else. -/
theorem commit_cases (stored : Except IoError Unit) :
    (∃ location, stored = .ok () ∧ files.Admits handle.target location ∧
      handle.commit stored files =
        (.ok (), (files.erase handle.location).put location (.file (.bytes data)))) ∨
    ∃ cause, handle.commit stored files =
      (.error (.persist handle.target cause), files.erase handle.location) := by
  rcases stored with cause | ⟨⟨⟩⟩
  · exact Or.inr ⟨cause, by rw [commit, isOpen.abort_eq]⟩
  rcases moved : files.rename handle.temporary handle.target with cause | renamed
  · exact Or.inr ⟨cause, by rw [commit, moved, isOpen.abort_eq]⟩
  · rcases (rename_eq_ok_iff isOpen.named isOpen.place isOpen.present).mp moved with
      ⟨location, admits, rfl⟩
    exact Or.inl ⟨location, rfl, admits, by rw [commit, moved]⟩

theorem commit_of_admits (admits : files.Admits handle.target location) :
    handle.commit (.ok ()) files =
      (.ok (), (files.erase handle.location).put location (.file (.bytes data))) := by
  rw [commit, (rename_eq_ok_iff isOpen.named isOpen.place isOpen.present).mpr
    ⟨location, admits, rfl⟩]

end Open

/-- Erasing a temporary file gives back the very files that were there before. -/
theorem erase_write_of_start (started : start files target = .ok (handle, next))
    (data : List UInt8) : (handle.write next data).erase handle.location =
      { files with tokens := next.tokens } := by
  rw [(open_of_start started).write_eq]
  rcases start_eq_ok started with ⟨tokens, _, _, _, free, rfl⟩
  change { ((files.put handle.location (.file (.bytes []))).put handle.location _).erase
    handle.location with tokens } = { files with tokens }
  rw [put_put, erase_put free]

theorem abort_write_of_start (started : start files target = .ok (handle, next))
    (data : List UInt8) :
    handle.abort (handle.write next data) = { files with tokens := next.tokens } := by
  rw [(open_of_start started).open_write.abort_eq, erase_write_of_start started]

/-- Writing to a handle changes no directory. -/
theorem extends_of_write (started : start files target = .ok (handle, next))
    (data : List UInt8) :
    (handle.write next data).Extends files ∧ files.Extends (handle.write next data) := by
  have isOpen := open_of_start started
  rcases extends_of_start started with ⟨wider, narrower⟩
  rw [isOpen.write_eq]
  exact ⟨(extends_put fun isDirectory => absurd isDirectory isOpen.not_isDirectory).trans wider,
    narrower.trans extends_of_put_file⟩

/-- A handle that is concluded at once leaves the data at its target if nothing fails by itself, or
it leaves the files from before its start. -/
theorem conclude_cases (started : start files target = .ok (handle, next))
    (answers : SaveAnswers) (data : List UInt8) :
    (∃ location, answers.writing = .ok () ∧ answers.storing = .ok () ∧
      files.Admits target location ∧ handle.conclude answers data next =
        (.ok (), { files.put location (.file (.bytes data)) with tokens := next.tokens })) ∨
    ∃ cause, handle.conclude answers data next =
      (.error (.persist target cause), { files with tokens := next.tokens }) := by
  rcases start_eq_ok started with ⟨_, targetEq, _⟩
  have erased := erase_write_of_start started data
  rcases writing : answers.writing with ⟨taken, cause⟩ | ⟨⟨⟩⟩
  · refine Or.inr ⟨cause, ?_⟩
    simp only [conclude, writing, abort_write_of_start started, targetEq]
  have concluded : handle.conclude answers data next =
      handle.commit answers.storing (handle.write next data) := by
    simp only [conclude, writing]
  rw [concluded]
  rcases (open_of_start started).open_write.commit_cases answers.storing with
    ⟨location, storing, admits, committed⟩ | ⟨cause, committed⟩
  · left
    rcases extends_of_write started data with ⟨wider, narrower⟩
    rw [targetEq] at admits
    refine ⟨location, rfl, storing, admits.extend narrower wider, ?_⟩
    rw [committed, erased]
    rfl
  · exact Or.inr ⟨cause, by rw [committed, erased, targetEq]⟩

/-- A handle on a target that admits a file is concluded with success if nothing fails by
itself. -/
theorem conclude_of_admits (started : start files target = .ok (handle, next))
    (admits : files.Admits target location) (data : List UInt8) :
    ∃ saved, handle.conclude .sound data next = (.ok (), saved) := by
  rcases start_eq_ok started with ⟨_, targetEq, _⟩
  rcases extends_of_write started data with ⟨wider, narrower⟩
  have admitted := admits.extend wider narrower
  rw [← targetEq] at admitted
  exact ⟨_, (open_of_start started).open_write.commit_of_admits admitted⟩

theorem exists_persist_of_start {error : Error} (failed : start files target = .error error) :
    ∃ cause, error = .persist target cause := by
  unfold start at failed
  split at failed
  · cases failed
  · rename_i cause _
    cases failed
    exact ⟨cause, rfl⟩

end WriteHandle

namespace FileSystem

variable [ImageLibrary] {files next : FileSystem} {path : Path} {image : Image}

/-- The ways in which a save may end. What is left of one that fails is the count of the names that
were tried. -/
inductive SaveEffect (files : FileSystem) (path : Path) (image : Image) :
    Except Error Unit × FileSystem → Prop
  | unencoded {cause : CodecError} (failed : ImageLibrary.encode image = .error cause) :
    SaveEffect files path image (.error (.ofCodec cause), files)
  | unsaved {cause : IoError} {tokens : Nat} :
    SaveEffect files path image (.error (.persist path cause), { files with tokens })
  | saved {data : List UInt8} {location : Location} {tokens : Nat}
      {begun : WriteHandle × FileSystem} (encoded : ImageLibrary.encode image = .ok data)
      (sound : files.saving files.tokens = .sound)
      (started : WriteHandle.start files path = .ok begun) (admits : files.Admits path location) :
    SaveEffect files path image
      (.ok (), { files.put location (.file (.bytes data)) with tokens })

/-- Saving an image puts its encoding at the place of the path, where no directory may be, or it
changes nothing. -/
theorem effect_saveThumbnail (files : FileSystem) (path : Path) (image : Image) :
    files.SaveEffect path image (files.saveThumbnail path image) := by
  unfold saveThumbnail
  rcases encoding : ImageLibrary.encode image with cause | data
  · exact .unencoded encoding
  rcases answersEq : files.saving files.tokens with ⟨_ | ⟨⟩, writing, storing⟩
  · exact .unsaved
  rcases starting : WriteHandle.start files path with error | ⟨handle, started⟩
  · rcases WriteHandle.exists_persist_of_start starting with ⟨cause, rfl⟩
    exact .unsaved
  rcases WriteHandle.conclude_cases starting ⟨.ok (), writing, storing⟩ data with
    ⟨location, rfl, rfl, admits, concluded⟩ | ⟨cause, concluded⟩
  · simp only [concluded]
    exact .saved encoding answersEq starting admits
  · simp only [concluded]
    exact .unsaved

/-- What a save that succeeds has put at its target. -/
theorem exists_put_of_saved (saved : files.saveThumbnail path image = (.ok (), next)) :
    ∃ data location, ImageLibrary.encode image = .ok data ∧ files.Admits path location ∧
      next = { files.put location (.file (.bytes data)) with tokens := next.tokens } ∧
      next.nodeAt? path = some (.file (.bytes data)) := by
  have effect := files.effect_saveThumbnail path image
  rw [saved] at effect
  cases effect with
  | saved encoded _ _ admits => exact ⟨_, _, encoded, admits, rfl, admits.nodeAt?_of_placed rfl⟩

theorem exists_error_of_unsaved (unsaved : (files.saveThumbnail path image).1 ≠ .ok ()) :
    ∃ error tokens, files.saveThumbnail path image = (.error error, { files with tokens }) := by
  have effect := files.effect_saveThumbnail path image
  generalize files.saveThumbnail path image = result at effect unsaved ⊢
  cases effect with
  | unencoded => exact ⟨_, files.tokens, rfl⟩
  | unsaved => exact ⟨_, _, rfl⟩
  | saved => exact absurd rfl unsaved

end FileSystem

end Thumbnails
