import Mathlib.Data.List.DropRight
import Mathlib.Data.List.Induction
import Thumbnails.Image.Basic
import Thumbnails.Key.Basic

/-!
# A cache ordered by last use

The loaded records of a store are meant to be a cache of limited capacity that gives up what was
used least recently. This is such a cache with nothing else to it, a list of entries, for the state
of a real one to be compared with.

That the list is in the order of the last uses is not part of its definition. It follows, from the
events that the cache was fed with (`LruCache.sorted_after`), and so does the bound on its length.
-/

namespace Thumbnails

/-- Thumbnails with their keys, at most as many as the capacity. -/
structure LruCache (capacity : Nat) where
  /-- The one used least recently comes first. -/
  entries : List (ThumbnailKey × Image)

/-- What can happen to a cache ordered by last use. -/
inductive LruEvent where
  | landed (key : ThumbnailKey) (pixmap : Image)
  | hit (key : ThumbnailKey)
  | forgotten (key : ThumbnailKey)
  | trimmed

/-- The key that an event uses. -/
def LruEvent.used? : LruEvent → Option ThumbnailKey
  | .landed key _ => some key
  | .hit key => some key
  | .forgotten _ => none
  | .trimmed => none

/-- The position of the last event that uses a key, counted from one. -/
def lastUse (events : List LruEvent) (key : ThumbnailKey) : Nat :=
  (events.rdropWhile fun event => event.used? ≠ some key).length

section LastUse

variable {events : List LruEvent} {event : LruEvent} {key : ThumbnailKey}

theorem lastUse_concat_of_used (used : event.used? = some key) :
    lastUse (events ++ [event]) key = events.length + 1 := by
  rw [lastUse, List.rdropWhile_concat_neg]
  · simp
  · simp [used]

theorem lastUse_concat_of_unused (unused : event.used? ≠ some key) :
    lastUse (events ++ [event]) key = lastUse events key := by
  rw [lastUse, List.rdropWhile_concat_pos, lastUse]
  simpa using unused

theorem lastUse_le (events : List LruEvent) (key : ThumbnailKey) :
    lastUse events key ≤ events.length :=
  (List.rdropWhile_prefix _ events).length_le

end LastUse

namespace LruCache

variable {capacity : Nat}

def empty : LruCache capacity :=
  ⟨[]⟩

def find? (cache : LruCache capacity) (key : ThumbnailKey) : Option Image :=
  cache.entries.lookup key

def delete (cache : LruCache capacity) (key : ThumbnailKey) : LruCache capacity :=
  ⟨cache.entries.filter fun entry => entry.1 ≠ key⟩

/-- Makes the entry of a key the one used most recently. -/
def use (cache : LruCache capacity) (key : ThumbnailKey) : LruCache capacity :=
  match cache.find? key with
  | none => cache
  | some pixmap => ⟨(cache.delete key).entries ++ [(key, pixmap)]⟩

/-- A cache that is full gives up the entry used least recently. -/
def evict (cache : LruCache capacity) : LruCache capacity :=
  if cache.entries.length < capacity then cache else ⟨cache.entries.tail⟩

def insert (cache : LruCache capacity) (key : ThumbnailKey) (pixmap : Image) :
    LruCache capacity :=
  ⟨(cache.delete key).evict.entries ++ [(key, pixmap)]⟩

/-- Gives up the entries used least recently until there is room for one more. -/
def trim (cache : LruCache capacity) : LruCache capacity :=
  ⟨cache.entries.drop (cache.entries.length - (capacity - 1))⟩

def apply (cache : LruCache capacity) : LruEvent → LruCache capacity
  | .landed key pixmap => cache.insert key pixmap
  | .hit key => cache.use key
  | .forgotten key => cache.delete key
  | .trimmed => cache.trim

/-- What a cache that was empty at first holds after some events. -/
def after (capacity : Nat) (events : List LruEvent) : LruCache capacity :=
  events.foldl apply empty

theorem after_concat (capacity : Nat) (events : List LruEvent) (event : LruEvent) :
    after capacity (events ++ [event]) = (after capacity events).apply event := by
  simp [after]

variable {cache : LruCache capacity} {key : ThumbnailKey} {pixmap : Image}

theorem evict_sublist (cache : LruCache capacity) : cache.evict.entries.Sublist cache.entries := by
  rw [evict]
  split
  · exact List.Sublist.refl _
  · exact List.tail_sublist _

theorem key_ne_of_mem_delete {entry : ThumbnailKey × Image}
    (entryMem : entry ∈ (cache.delete key).entries) : entry.1 ≠ key := by
  simpa using (List.mem_filter.mp entryMem).2

theorem key_ne_of_find?_eq_none (absent : cache.find? key = none) {entry : ThumbnailKey × Image}
    (entryMem : entry ∈ cache.entries) : entry.1 ≠ key := by
  have different := List.lookup_eq_none_iff.mp absent entry entryMem
  intro same
  simp [same] at different

/-- The order of some entries is that of their last uses. -/
def SortedByUse (events : List LruEvent) (entries : List (ThumbnailKey × Image)) : Prop :=
  entries.Pairwise fun entry other => lastUse events entry.1 < lastUse events other.1

section SortedByUse

variable {events : List LruEvent} {event : LruEvent} {entries kept : List (ThumbnailKey × Image)}

/-- What is kept without being used keeps its order. -/
theorem SortedByUse.keep (sorted : SortedByUse events entries) (sublist : kept.Sublist entries)
    (unused : ∀ entry ∈ kept, event.used? ≠ some entry.1) :
    SortedByUse (events ++ [event]) kept := by
  apply (List.Pairwise.sublist sublist sorted).imp_of_mem
  intro entry other entryMem otherMem earlier
  rwa [lastUse_concat_of_unused (unused entry entryMem),
    lastUse_concat_of_unused (unused other otherMem)]

/-- What is used goes behind what is kept. -/
theorem SortedByUse.push (sorted : SortedByUse events entries) (sublist : kept.Sublist entries)
    (used : event.used? = some key) (others : ∀ entry ∈ kept, entry.1 ≠ key) (pixmap : Image) :
    SortedByUse (events ++ [event]) (kept ++ [(key, pixmap)]) := by
  have unused : ∀ entry ∈ kept, event.used? ≠ some entry.1 := by
    intro entry entryMem
    rw [used]
    exact fun same => others entry entryMem (Option.some.inj same).symm
  apply List.pairwise_append.mpr
  refine ⟨sorted.keep sublist unused, List.pairwise_singleton _ _, ?_⟩
  intro entry entryMem other otherMem
  rw [List.mem_singleton.mp otherMem, lastUse_concat_of_used used,
    lastUse_concat_of_unused (unused entry entryMem)]
  exact Nat.lt_succ_of_le (lastUse_le events entry.1)

theorem SortedByUse.apply (sorted : SortedByUse events cache.entries) (event : LruEvent) :
    SortedByUse (events ++ [event]) (cache.apply event).entries := by
  cases event with
  | landed key pixmap =>
      have evicted := (cache.delete key).evict_sublist
      apply sorted.push (evicted.trans List.filter_sublist) rfl
      intro entry entryMem
      exact key_ne_of_mem_delete (evicted.subset entryMem)
  | hit key =>
      simp only [LruCache.apply, use]
      split
      · rename_i absent
        apply sorted.keep (List.Sublist.refl _)
        intro entry entryMem same
        exact key_ne_of_find?_eq_none absent entryMem (Option.some.inj same).symm
      · apply sorted.push List.filter_sublist rfl
        intro entry entryMem
        exact key_ne_of_mem_delete entryMem
  | forgotten key =>
      apply sorted.keep List.filter_sublist
      exact fun _ _ => nofun
  | trimmed =>
      apply sorted.keep (List.drop_sublist _ _)
      exact fun _ _ => nofun

end SortedByUse

/-- Whatever happens to a cache, its entries come in the order of their last uses. -/
theorem sorted_after (capacity : Nat) (events : List LruEvent) :
    SortedByUse events (after capacity events).entries := by
  induction events using List.reverseRecOn with
  | nil => exact List.Pairwise.nil
  | append_singleton events event ih =>
      rw [after_concat]
      exact ih.apply event

/-- A key has one entry at most. -/
theorem find?_eq_some_iff {events : List LruEvent} (sorted : SortedByUse events cache.entries) :
    cache.find? key = some pixmap ↔ (key, pixmap) ∈ cache.entries := by
  constructor
  · intro found
    rcases List.lookup_eq_some_iff.mp found with ⟨front, back, split, _⟩
    simp [split]
  · intro entryMem
    rcases List.append_of_mem entryMem with ⟨front, back, split⟩
    apply List.lookup_eq_some_iff.mpr
    refine ⟨front, back, split, ?_⟩
    intro entry entryFront
    rw [SortedByUse, split] at sorted
    have earlier := (List.pairwise_append.mp sorted).2.2 entry entryFront (key, pixmap) (by simp)
    have different : key ≠ entry.1 := by
      intro same
      rw [same] at earlier
      exact absurd earlier (Nat.lt_irrefl _)
    simpa using different

theorem length_evict_lt (positive : 0 < capacity) (fits : cache.entries.length ≤ capacity) :
    cache.evict.entries.length < capacity := by
  rw [evict]
  split
  · assumption
  · simp only [List.length_tail]
    omega

theorem length_apply_le (positive : 0 < capacity) (fits : cache.entries.length ≤ capacity)
    (event : LruEvent) : (cache.apply event).entries.length ≤ capacity := by
  have deleted : ∀ key, (cache.delete key).entries.length ≤ cache.entries.length :=
    fun _ => List.length_filter_le _ _
  cases event with
  | landed key pixmap =>
      have roomy := length_evict_lt positive (Nat.le_trans (deleted key) fits)
      simp only [apply, insert, List.length_append, List.length_singleton]
      omega
  | hit key =>
      simp only [apply, use]
      split
      · exact fits
      · rename_i pixmap found
        rcases List.lookup_eq_some_iff.mp found with ⟨front, back, split, _⟩
        have fewer : (cache.delete key).entries.length < cache.entries.length := by
          apply List.length_filter_lt_length_iff_exists.mpr
          exact ⟨(key, pixmap), by simp [split], by simp⟩
        simp only [List.length_append, List.length_singleton]
        omega
  | forgotten key => exact Nat.le_trans (deleted key) fits
  | trimmed =>
      simp only [apply, trim, List.length_drop]
      omega

theorem length_after_le (positive : 0 < capacity) (events : List LruEvent) :
    (after capacity events).entries.length ≤ capacity := by
  induction events using List.reverseRecOn with
  | nil => exact Nat.zero_le _
  | append_singleton events event ih =>
      rw [after_concat]
      exact length_apply_le positive ih event

/-- A cache that is no more than full gives up one entry at most to have room for another. -/
theorem trim_eq_evict (positive : 0 < capacity) (fits : cache.entries.length ≤ capacity) :
    cache.trim = cache.evict := by
  simp only [trim, evict]
  split
  · rename_i roomy
    have enough : cache.entries.length - (capacity - 1) = 0 := by omega
    rw [enough, List.drop_zero]
  · have one : cache.entries.length - (capacity - 1) = 1 := by omega
    rw [one, List.drop_one]

end LruCache

end Thumbnails
