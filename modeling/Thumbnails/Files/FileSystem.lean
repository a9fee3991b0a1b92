import Thumbnails.Files.Content
import Thumbnails.Path.Basic

/-!
# The file system

A file system is a set of places below a root, each of them a directory or a regular file. A place
is named by the names that lead to it from the root. Operations on places are total; whether a path
leads to a place, and what may be done there, is the matter of other modules.

A save may also fail by itself, because a disk is full or breaks. A file system knows the answers
that saves are going to get from it. Each save tries a name, so it has answers of its own.
-/

namespace Thumbnails

/-- The names that lead from the root to a place. -/
abbrev Location := List EntryName

inductive Node where
  | directory
  | file (content : Content)
  deriving DecidableEq, Repr

/-- How the system answers the stages of a save, apart from what paths and places decide. -/
structure SaveAnswers where
  creating : Except IoError Unit
  /-- A file that takes no more has taken a number of bytes by then. -/
  writing : Except (Nat × IoError) Unit
  /-- Whether what was written could be flushed and stored, and the file be moved. -/
  storing : Except IoError Unit

/-- The answers of a system on which nothing fails by itself. -/
def SaveAnswers.sound : SaveAnswers :=
  ⟨.ok (), .ok (), .ok ()⟩

/-- Directories and files below a root. -/
structure FileSystem where
  entries : List (Location × Node)
  /-- Where relative paths begin. -/
  workingDirectory : Location
  /-- How many names of temporary files were tried so far. No name is tried twice. -/
  tokens : Nat
  /-- The answers that a save gets, by the number of names that were tried before it. -/
  saving : Nat → SaveAnswers

namespace FileSystem

/-- What is at a place. The root is always there. -/
def node? (files : FileSystem) (location : Location) : Option Node :=
  if location = [] then some .directory else files.entries.lookup location

def put (files : FileSystem) (location : Location) (node : Node) : FileSystem :=
  { files with
    entries := (location, node) :: files.entries.filter fun entry => entry.1 ≠ location }

def erase (files : FileSystem) (location : Location) : FileSystem :=
  { files with entries := files.entries.filter fun entry => entry.1 ≠ location }

def eraseBelow (files : FileSystem) (location : Location) : FileSystem :=
  { files with
    entries := files.entries.filter fun entry =>
      entry.1 = location || !location.isPrefixOf entry.1 }

/-- A file system with just the directories that lead to its working directory, on which nothing
fails by itself. -/
def withWorkingDirectory (location : Location) : FileSystem :=
  let directories := (List.range location.length).map fun depth =>
    (location.take (depth + 1), Node.directory)
  { entries := directories, workingDirectory := location, tokens := 0, saving _ := .sound }

theorem lookup_filter_ne (entries : List (Location × Node)) (removed key : Location) :
    (entries.filter fun entry => entry.1 ≠ removed).lookup key =
      if key = removed then none else entries.lookup key := by
  induction entries with
  | nil => simp
  | cons entry entries inductionHypothesis =>
    obtain ⟨entryKey, value⟩ := entry
    by_cases dropped : entryKey = removed
    · subst dropped
      by_cases same : key = entryKey
      · subst same
        simpa using inductionHypothesis
      · have different : (key == entryKey) = false := by simpa using same
        simpa [List.lookup_cons, different, same] using inductionHypothesis
    · by_cases same : key = entryKey
      · subst same
        simp [dropped]
      · have different : (key == entryKey) = false := by simpa using same
        simpa [List.lookup_cons, different, dropped] using inductionHypothesis

@[simp]
theorem node?_put (files : FileSystem) (location other : Location) (node : Node) :
    (files.put location node).node? other =
      if other = [] then some .directory
      else if other = location then some node else files.node? other := by
  unfold node? put
  by_cases root : other = []
  · simp [root]
  · by_cases same : other = location
    · simp [same]
    · have different : (other == location) = false := by simpa using same
      simp only [root, if_false, same]
      rw [List.lookup_cons, different, lookup_filter_ne]
      simp [same]

@[simp]
theorem node?_erase (files : FileSystem) (location other : Location) :
    (files.erase location).node? other =
      if other = [] then some .directory
      else if other = location then none else files.node? other := by
  unfold node? erase
  by_cases root : other = []
  · simp [root]
  · simp only [root, if_false, lookup_filter_ne]

end FileSystem

end Thumbnails
