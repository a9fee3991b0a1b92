import Thumbnails.Files.Operations
import Thumbnails.Path.Normal

/-!
# The place of a path

Finding what a path leads to has two halves. A path names a place, which depends on the directories
that it goes through (`FileSystem.place?`), and something is or is not at that place
(`FileSystem.find_eq_ok_iff`). The second half is all that writing a file changes, so paths name the
same places as long as no directory is removed (`FileSystem.Extends.place?`).

The directories that a path goes through are entered one by one (`FileSystem.Enters`). Every one of
them has to be there, the last one included, and nothing else has to.
-/

namespace Thumbnails

/-- The place that a segment names in a directory, if it is not too long to be a name. -/
def placeIn? (directory : Location) (segment : EntryName) : Option Location :=
  if segment = [] ∨ segment = [dot] then some directory
  else if segment = [dot, dot] then some directory.dropLast
  else if segment.length > longestName then none
  else some (directory ++ [segment])

/-- A computation in two parts succeeds if both do. -/
theorem bind_eq_ok_iff {ε α β : Type} {first : Except ε α} {second : α → Except ε β} {result : β} :
    first >>= second = .ok result ↔ ∃ middle, first = .ok middle ∧ second middle = .ok result := by
  cases first <;> simp [bind, Except.bind]

theorem exists_unit_iff {property : Unit → Prop} : (∃ value, property value) ↔ property () :=
  ⟨fun ⟨(), holds⟩ => holds, fun holds => ⟨(), holds⟩⟩

/-- What comes after a failure is left out. -/
theorem throw_bind {ε α β : Type} (fault : ε) (rest : α → Except ε β) :
    (throw fault : Except ε α) >>= rest = throw fault :=
  rfl

/-- A computation that first fails under a condition succeeds if the rest does without it. -/
theorem ite_throw_eq_ok_iff {ε α : Type} {condition : Prop} [Decidable condition] {fault : ε}
    {rest : Except ε α} {result : α} : (if condition then throw fault else rest) = .ok result ↔
      ¬condition ∧ rest = .ok result := by
  split <;> simp_all [throw, throwThe, MonadExceptOf.throw]

namespace FileSystem

def IsDirectory (files : FileSystem) (location : Location) : Prop :=
  files.node? location = some .directory

/-- A list of segments leads through directories into a directory. -/
def Enters (files : FileSystem) : Location → List EntryName → Location → Prop
  | location, [], directory => location = directory ∧ files.IsDirectory directory
  | location, segment :: rest, directory =>
    files.IsDirectory location ∧
      ∃ next, placeIn? location segment = some next ∧ files.Enters next rest directory

/-- The place that a path leads to, whether or not something is there. -/
def place? (files : FileSystem) (path : Path) : Option Location :=
  match checkPath path, files.followAll (files.origin path) (segments path.bytes).dropLast with
  | .ok (), .ok directory =>
    if files.node? directory = some .directory then
      placeIn? directory ((segments path.bytes).getLastD [])
    else none
  | _, _ => none

variable {files other : FileSystem} {location next directory : Location} {segment : EntryName}
  {parts : List EntryName} {path : Path}

theorem requireDirectory_eq_ok_iff :
    files.requireDirectory location = .ok () ↔ files.IsDirectory location := by
  unfold requireDirectory IsDirectory
  split <;> simp_all

/-- A step goes to the place of a segment. A name has to be there, and the directory above need
not. -/
theorem follow_eq_ok_iff : files.follow location segment = .ok next ↔
    files.IsDirectory location ∧ placeIn? location segment = some next ∧
      ((files.node? next).isSome ∨ segment = [dot, dot]) := by
  simp only [follow, bind_eq_ok_iff, exists_unit_iff, requireDirectory_eq_ok_iff, placeIn?]
  apply and_congr_right
  intro required
  split
  · constructor
    · rintro ⟨⟩
      simp_all [IsDirectory]
    · rintro ⟨⟨⟩, _⟩
      rfl
  · split
    · simp_all [pure, Except.pure]
    · split
      · simp [throw, throwThe, MonadExceptOf.throw]
      · constructor
        · intro followed
          split at followed
          · cases followed
          · rename_i present
            cases followed
            exact ⟨rfl, Or.inl (by simpa [← Option.isSome_iff_ne_none] using present)⟩
        · rintro ⟨⟨⟩, present⟩
          simp_all [pure, Except.pure, Option.isSome_iff_ne_none]

theorem Enters.start (enters : files.Enters location parts directory) :
    files.IsDirectory location := by
  cases parts with
  | nil => exact enters.1 ▸ enters.2
  | cons segment rest => exact enters.1

/-- Segments are entered if they can be followed and the last of them leads to a directory. -/
theorem enters_iff : files.Enters location parts directory ↔
    files.followAll location parts = .ok directory ∧ files.IsDirectory directory := by
  induction parts generalizing location with
  | nil => simp [Enters, followAll]
  | cons segment rest inductionHypothesis =>
    simp only [Enters, followAll, bind_eq_ok_iff, inductionHypothesis, follow_eq_ok_iff]
    constructor
    · rintro ⟨isDirectory, next, place, followed, finish⟩
      have present : files.IsDirectory next := (inductionHypothesis.mpr ⟨followed, finish⟩).start
      refine ⟨⟨next, ⟨isDirectory, place, ?_⟩, followed⟩, finish⟩
      left
      simp [show files.node? next = some .directory from present]
    · rintro ⟨⟨next, ⟨isDirectory, place, _⟩, followed⟩, finish⟩
      exact ⟨isDirectory, next, place, followed, finish⟩

theorem followAll_concat : files.followAll location (parts ++ [segment]) = .ok next ↔
    ∃ directory, files.followAll location parts = .ok directory ∧
      files.follow directory segment = .ok next := by
  induction parts generalizing location with
  | nil => simp [followAll, bind_eq_ok_iff]
  | cons first rest inductionHypothesis =>
    simp only [List.cons_append, followAll, bind_eq_ok_iff, inductionHypothesis]
    constructor
    · rintro ⟨middle, followed, directory, restFollowed, lastFollowed⟩
      exact ⟨directory, ⟨middle, followed, restFollowed⟩, lastFollowed⟩
    · rintro ⟨directory, ⟨middle, followed, restFollowed⟩, lastFollowed⟩
      exact ⟨middle, followed, directory, restFollowed, lastFollowed⟩

theorem place?_eq_some_iff : files.place? path = some location ↔
    checkPath path = .ok () ∧
      ∃ directory, files.Enters (files.origin path) (segments path.bytes).dropLast directory ∧
        placeIn? directory ((segments path.bytes).getLastD []) = some location := by
  simp only [enters_iff, IsDirectory]
  constructor
  · intro place
    unfold place? at place
    split at place
    · rename_i directory passes followed
      split at place
      · rename_i isDirectory
        exact ⟨passes, directory, ⟨followed, isDirectory⟩, place⟩
      · cases place
    · cases place
  · rintro ⟨passes, directory, ⟨followed, isDirectory⟩, last⟩
    simpa only [place?, passes, followed, isDirectory, if_true] using last

/-- What a path leads to is what is at its place. -/
theorem find_eq_ok_iff {node : Node} : files.find path = .ok (location, node) ↔
    files.place? path = some location ∧ files.node? location = some node := by
  have cut : segments path.bytes =
      (segments path.bytes).dropLast ++ [(segments path.bytes).getLastD []] := by
    rw [List.getLastD_eq_getLast?, List.getLast?_eq_some_getLast (segments_ne_nil _),
      Option.getD_some, List.dropLast_concat_getLast]
  have atPlace : ∀ place, files.locate path = .ok place ∧ files.node? place = some node ↔
      files.place? path = some place ∧ files.node? place = some node := by
    intro place
    simp only [locate, bind_eq_ok_iff, exists_unit_iff, place?_eq_some_iff, enters_iff]
    rw [cut, followAll_concat, ← cut]
    constructor
    · rintro ⟨⟨passes, directory, followed, last⟩, present⟩
      rcases follow_eq_ok_iff.mp last with ⟨isDirectory, inDirectory, _⟩
      exact ⟨⟨passes, directory, ⟨followed, isDirectory⟩, inDirectory⟩, present⟩
    · rintro ⟨⟨passes, directory, ⟨followed, isDirectory⟩, inDirectory⟩, present⟩
      refine ⟨⟨passes, directory, followed, ?_⟩, present⟩
      exact follow_eq_ok_iff.mpr ⟨isDirectory, inDirectory, by simp [present]⟩
  rw [← atPlace]
  simp only [find, bind_eq_ok_iff]
  constructor
  · rintro ⟨place, located, found⟩
    split at found
    · rename_i present
      cases found
      exact ⟨located, present⟩
    · cases found
  · rintro ⟨located, present⟩
    exact ⟨location, located, by simp [present, pure, Except.pure]⟩

/-- What a path leads to, if it leads to anything. -/
def nodeAt? (files : FileSystem) (path : Path) : Option Node :=
  (files.find path).toOption.map (·.2)

theorem nodeAt?_eq_some_iff {node : Node} : files.nodeAt? path = some node ↔
    ∃ location, files.place? path = some location ∧ files.node? location = some node := by
  simp only [nodeAt?, Option.map_eq_some_iff]
  constructor
  · rintro ⟨⟨location, node⟩, found, rfl⟩
    cases answer : files.find path with
    | error fault => simp [answer, Except.toOption] at found
    | ok pair =>
      obtain rfl : pair = (location, node) := by simpa [answer, Except.toOption] using found
      exact ⟨location, find_eq_ok_iff.mp answer⟩
  · rintro ⟨location, present⟩
    exact ⟨(location, node), by simp [find_eq_ok_iff.mpr present, Except.toOption], rfl⟩

theorem nodeAt?_of_place? (place : files.place? path = some location) :
    files.nodeAt? path = files.node? location := by
  ext node
  simp [nodeAt?_eq_some_iff, place]

theorem nodeAt?_of_no_place (nowhere : files.place? path = none) : files.nodeAt? path = none := by
  apply Option.eq_none_iff_forall_ne_some.mpr
  simp [nodeAt?_eq_some_iff, nowhere]

theorem read_of_nodeAt? {node : Node} (present : files.nodeAt? path = some node) :
    files.read path = node.read := by
  rcases nodeAt?_eq_some_iff.mp present with ⟨location, found⟩
  rw [read, find_eq_ok_iff.mpr found]
  rfl

/-- Reading gives the bytes of a file at a path. -/
theorem read_eq_ok_iff {data : List UInt8} :
    files.read path = .ok data ↔ files.nodeAt? path = some (.file (.bytes data)) := by
  constructor
  · intro answer
    rw [read, bind_eq_ok_iff] at answer
    rcases answer with ⟨⟨location, _ | _ | cause⟩, found, answer⟩
    · cases answer
    · cases answer
      exact nodeAt?_eq_some_iff.mpr ⟨location, find_eq_ok_iff.mp found⟩
    · cases answer
  · intro present
    rw [read_of_nodeAt? present, Node.read]

theorem existsAt_iff : files.existsAt path = true ↔ (files.nodeAt? path).isSome := by
  unfold existsAt nodeAt?
  cases files.find path <;> simp [Except.toOption]

/-- Every directory of one file system is there in another, in which paths begin at the same
place. -/
structure Extends (other files : FileSystem) : Prop where
  workingDirectory : other.workingDirectory = files.workingDirectory
  directory {location : Location} : files.IsDirectory location → other.IsDirectory location

namespace Extends

theorem enters (wider : other.Extends files) (entered : files.Enters location parts directory) :
    other.Enters location parts directory := by
  induction parts generalizing location with
  | nil => exact ⟨entered.1, wider.directory entered.2⟩
  | cons segment rest inductionHypothesis =>
    rcases entered with ⟨isDirectory, next, place, rest⟩
    exact ⟨wider.directory isDirectory, next, place, inductionHypothesis rest⟩

theorem origin (wider : other.Extends files) (path : Path) :
    other.origin path = files.origin path := by
  simp only [FileSystem.origin, wider.workingDirectory]

theorem place? (wider : other.Extends files) (place : files.place? path = some location) :
    other.place? path = some location := by
  rcases place?_eq_some_iff.mp place with ⟨passes, directory, entered, last⟩
  refine place?_eq_some_iff.mpr ⟨passes, directory, ?_, last⟩
  rw [wider.origin]
  exact wider.enters entered

theorem refl (files : FileSystem) : files.Extends files :=
  ⟨rfl, id⟩

theorem trans {last : FileSystem} (later : last.Extends other) (earlier : other.Extends files) :
    last.Extends files :=
  ⟨later.workingDirectory.trans earlier.workingDirectory, later.directory ∘ earlier.directory⟩

/-- Two file systems with the same directories are in agreement on all places. -/
theorem place?_eq (wider : other.Extends files) (narrower : files.Extends other) :
    other.place? = files.place? := by
  funext path
  apply Option.ext
  intro location
  exact ⟨narrower.place?, wider.place?⟩

end Extends

theorem extends_put {node : Node} (free : files.IsDirectory location → node = .directory) :
    (files.put location node).Extends files := by
  refine ⟨rfl, ?_⟩
  intro directory isDirectory
  simp only [IsDirectory, node?_put]
  split
  · rfl
  · split
    · rename_i same
      rw [free (same ▸ isDirectory)]
    · exact isDirectory

theorem extends_erase (free : ¬files.IsDirectory location) :
    (files.erase location).Extends files := by
  refine ⟨rfl, ?_⟩
  intro directory isDirectory
  simp only [IsDirectory, node?_erase]
  split
  · rfl
  · split
    · rename_i same
      exact absurd (same ▸ isDirectory) free
    · exact isDirectory

theorem extends_of_put_file {content : Content} :
    files.Extends (files.put location (.file content)) := by
  refine ⟨rfl, ?_⟩
  intro directory isDirectory
  simp only [IsDirectory, node?_put] at isDirectory
  split at isDirectory
  · simp_all [IsDirectory, node?]
  · split at isDirectory
    · cases isDirectory
    · exact isDirectory

theorem extends_of_erase : files.Extends (files.erase location) := by
  refine ⟨rfl, ?_⟩
  intro directory isDirectory
  simp only [IsDirectory, node?_erase] at isDirectory
  split at isDirectory
  · simp_all [IsDirectory, node?]
  · split at isDirectory
    · cases isDirectory
    · exact isDirectory

theorem place?_put_file {content : Content} (free : ¬files.IsDirectory location) :
    (files.put location (.file content)).place? = files.place? :=
  (extends_put fun isDirectory => absurd isDirectory free).place?_eq extends_of_put_file

end FileSystem

theorem segments_append_of_no_slash (front : List UInt8) {back : List UInt8}
    (free : slash ∉ back) : segments (front ++ back) =
      (segments front).dropLast ++ [(segments front).getLastD [] ++ back] := by
  induction front with
  | nil => simpa [segments] using segments_of_no_slash free
  | cons byte front inductionHypothesis =>
    rcases cut : segments front with _ | ⟨first, others⟩
    · exact absurd cut (segments_ne_nil front)
    · rw [cut] at inductionHypothesis
      simp only [List.cons_append, segments, inductionHypothesis, cut]
      split
      · simp [List.dropLast]
      · cases others <;> simp

namespace Path

/-- The last segment of a path, empty after a separator. -/
def lastSegment (path : Path) : EntryName :=
  (segments path.bytes).getLastD []

/-- Whether a path ends in a name, and neither in a separator nor in `.` or `..`. -/
def EndsInName (path : Path) : Prop :=
  path.lastSegment ≠ [] ∧ path.lastSegment ≠ [dot] ∧ path.lastSegment ≠ [dot, dot]

/-- The bytes of a directory that a name is put behind. -/
def lead (directory : Path) : List UInt8 :=
  if directory.bytes = [] ∨ directory.bytes.getLast? = some slash then directory.bytes
  else directory.bytes ++ [slash]

theorem bytes_child (directory : Path) (name : EntryName) :
    (directory.child name).bytes = directory.lead ++ name := by
  unfold child lead
  split <;> simp

theorem getLastD_segments_lead (directory : Path) :
    (segments directory.lead).getLastD [] = [] := by
  unfold lead
  split
  · rename_i ends
    rcases ends with empty | slashed
    · simp [empty, segments]
    · rcases List.getLast?_eq_some_iff.mp slashed with ⟨front, cut⟩
      simp [cut, segments_append_of_slash, segments]
  · simp [segments_append_of_slash, segments]

theorem segments_child (directory : Path) {name : EntryName} (free : slash ∉ name) :
    segments (directory.child name).bytes = (segments directory.lead).dropLast ++ [name] := by
  rw [bytes_child, segments_append_of_no_slash _ free, getLastD_segments_lead, List.nil_append]

theorem child_injective (directory : Path) : Function.Injective directory.child := by
  intro left right same
  have bytes := congrArg Path.bytes same
  rw [bytes_child, bytes_child] at bytes
  exact List.append_cancel_left bytes

end Path

namespace FileSystem

variable {files : FileSystem} {location : Location} {path : Path} {reached : Destination}

theorem checkName_eq_ok_iff : reached.checkName = .ok () ↔ reached.last.length ≤ longestName := by
  unfold Destination.checkName
  split
  · rename_i long
    simpa using long
  · rename_i short
    simpa using short

/-- No empty segment is left out at the end of a path that ends in a name. -/
theorem dropWhile_segments (named : path.EndsInName) :
    (segments path.bytes).reverse.dropWhile (· = []) = (segments path.bytes).reverse := by
  have last : (segments path.bytes).reverse.head? = some path.lastSegment := by
    rw [List.head?_reverse, Path.lastSegment, List.getLastD_eq_getLast?,
      List.getLast?_eq_some_getLast (segments_ne_nil _), Option.getD_some]
  rcases List.head?_eq_some_iff.mp last with ⟨before, cut⟩
  rw [cut, List.dropWhile_cons_of_neg (by simpa using named.1)]

theorem destination_eq_ok_iff (named : path.EndsInName) :
    files.destination path = .ok reached ↔ checkPath path = .ok () ∧
      files.Enters (files.origin path) (segments path.bytes).dropLast reached.directory ∧
      reached.last = path.lastSegment ∧ reached.trailing = false := by
  have tail : (segments path.bytes).reverse.tail.reverse = (segments path.bytes).dropLast := by
    simp
  have head : (segments path.bytes).reverse.headD [] = path.lastSegment := by
    simp [Path.lastSegment]
  have flat : decide ((segments path.bytes).reverse.length <
      (segments path.bytes).reverse.length) = false := by
    simp
  simp only [destination, bind_eq_ok_iff, exists_unit_iff, enters_iff, requireDirectory_eq_ok_iff,
    dropWhile_segments named, tail, head, flat, pure, Except.pure, Except.ok.injEq]
  constructor
  · rintro ⟨passes, directory, followed, isDirectory, rfl⟩
    exact ⟨passes, ⟨followed, isDirectory⟩, rfl, rfl⟩
  · rintro ⟨passes, ⟨followed, isDirectory⟩, last, trailing⟩
    exact ⟨passes, reached.directory, followed, isDirectory, by rw [← last, ← trailing]⟩

theorem endsInName_of_destination (found : files.destination path = .ok reached)
    (named : reached.isNamed = true) (flat : reached.trailing = false) : path.EndsInName := by
  simp only [destination, bind_eq_ok_iff, exists_unit_iff, pure, Except.pure,
    Except.ok.injEq] at found
  rcases found with ⟨_, directory, _, _, rfl⟩
  have whole : (segments path.bytes).reverse.dropWhile (· = []) =
      (segments path.bytes).reverse := by
    apply (List.dropWhile_suffix _).eq_of_length_le
    simpa using flat
  have last : (segments path.bytes).reverse.headD [] = path.lastSegment := by
    simp [Path.lastSegment]
  simp only [Destination.isNamed, whole, last] at named
  simpa [Path.EndsInName, and_assoc] using named

/-- The place of a path that ends in a name is where a file is to be found or made. -/
theorem place?_eq_some_iff_destination (named : path.EndsInName) :
    files.place? path = some location ↔ ∃ reached, files.destination path = .ok reached ∧
      reached.checkName = .ok () ∧ reached.location = location := by
  have inDirectory : ∀ directory, placeIn? directory path.lastSegment = some location ↔
      path.lastSegment.length ≤ longestName ∧ directory ++ [path.lastSegment] = location := by
    intro directory
    rcases named with ⟨nonempty, notCurrent, notParent⟩
    simp only [placeIn?, nonempty, notCurrent, notParent, or_self, if_false]
    split
    · rename_i long
      simp only [reduceCtorEq, false_iff, not_and]
      intro short
      omega
    · rename_i short
      simpa using fun _ => Nat.le_of_not_lt short
  simp only [place?_eq_some_iff, destination_eq_ok_iff named]
  change (_ ∧ ∃ directory, _ ∧ placeIn? directory path.lastSegment = _) ↔ _
  simp only [inDirectory, checkName_eq_ok_iff, Destination.location]
  constructor
  · rintro ⟨passes, directory, entered, short, rfl⟩
    exact ⟨⟨directory, path.lastSegment, false⟩, ⟨passes, entered, rfl, rfl⟩, short, rfl⟩
  · rintro ⟨reached, ⟨passes, entered, last, _⟩, short, rfl⟩
    exact ⟨passes, reached.directory, entered, last ▸ short, by rw [last]⟩

/-- A directory path leads to the directory in which the names behind it are looked up. -/
def Opens (files : FileSystem) (path : Path) (directory : Location) : Prop :=
  files.Enters (files.origin path) (segments path.lead).dropLast directory

theorem origin_child (path : Path) {name : EntryName} (free : slash ∉ name) :
    files.origin (path.child name) = files.origin path := by
  have absolute : (path.child name).isAbsolute = path.isAbsolute := by
    rw [Path.isAbsolute, Path.isAbsolute, Path.bytes_child, Path.lead]
    rcases empty : path.bytes with _ | ⟨byte, rest⟩
    · cases name with
      | nil => simp
      | cons first name => simp [(List.ne_of_not_mem_cons free).symm]
    · split <;> simp
  simp only [origin, absolute]

theorem place?_child (path : Path) {name : EntryName} (free : slash ∉ name) :
    files.place? (path.child name) = some location ↔ checkPath (path.child name) = .ok () ∧
      ∃ directory, files.Opens path directory ∧ placeIn? directory name = some location := by
  rw [place?_eq_some_iff, origin_child path free, Path.segments_child path free]
  simp [Opens]

/-- The place of a name in a directory ends in this name. -/
theorem getLast?_of_place?_child {name : EntryName} (plain : IsPlainName name)
    (found : files.place? (path.child name) = some location) : location.getLast? = some name := by
  rcases plain with ⟨nonempty, notCurrent, notParent, free⟩
  rcases (place?_child path free).mp found with ⟨_, directory, _, inDirectory⟩
  simp only [placeIn?, nonempty, notCurrent, notParent, or_self, if_false] at inDirectory
  split at inDirectory
  · cases inDirectory
  · obtain rfl := Option.some.inj inDirectory
    exact List.getLast?_concat

end FileSystem

end Thumbnails
