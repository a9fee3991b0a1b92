import Thumbnails.Store.Record

/-!
# The key index

Finds the record of a key. Entries are sorted by key, and keys that compare as equal share one
entry.
-/

namespace Thumbnails

/-- Record names by key, sorted. -/
structure KeyIndex where
  entries : List (ThumbnailKey × RecordId)

namespace KeyIndex

def empty : KeyIndex :=
  ⟨[]⟩

def size (index : KeyIndex) : Nat :=
  index.entries.length

/-- The first entry whose key is not less than a key, if it is an entry for that key. -/
def findIn (key : ThumbnailKey) : List (ThumbnailKey × RecordId) → Option RecordId
  | [] => none
  | entry :: rest =>
    match compare key entry.1 with
    | .lt => none
    | .eq => some entry.2
    | .gt => findIn key rest

/-- Sorted entries with another one for a key, in place of an old one. -/
def insertIn (key : ThumbnailKey) (id : RecordId) :
    List (ThumbnailKey × RecordId) → List (ThumbnailKey × RecordId)
  | [] => [(key, id)]
  | entry :: rest =>
    match compare key entry.1 with
    | .lt => (key, id) :: entry :: rest
    | .eq => (key, id) :: rest
    | .gt => entry :: insertIn key id rest

def eraseIn (key : ThumbnailKey) :
    List (ThumbnailKey × RecordId) → List (ThumbnailKey × RecordId)
  | [] => []
  | entry :: rest =>
    match compare key entry.1 with
    | .lt => entry :: rest
    | .eq => rest
    | .gt => entry :: eraseIn key rest

def find? (index : KeyIndex) (key : ThumbnailKey) : Option RecordId :=
  findIn key index.entries

def insert (index : KeyIndex) (key : ThumbnailKey) (id : RecordId) : KeyIndex :=
  ⟨insertIn key id index.entries⟩

def erase (index : KeyIndex) (key : ThumbnailKey) : KeyIndex :=
  ⟨eraseIn key index.entries⟩

end KeyIndex

end Thumbnails
