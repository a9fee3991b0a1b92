import Mathlib.Data.List.Induction
import Mathlib.Data.List.Infix
import Mathlib.Tactic.ByContra
import Thumbnails.Proofs.Files.Handle

/-!
# Interleaved writes

Any number of handles are open at a time, on the same target or on different ones, and what is done
with them comes in any order. Three kinds of files tell such a run from the outside: targets,
temporary files, and all others. What lies at a target is what lay there at first, or what was
written to the handle committed there last (`FileSystem.WritesAtomically`). Temporary files go with
their handles, and all others stay as they were.

The one thing to be sure of is that temporary files are left alone, so none of them may lie at the
place of a target (`FileSystem.KeepsApart`).
-/

namespace Thumbnails

/-- A handle that is in use, and all that was written to it. -/
structure OpenWrite where
  handle : WriteHandle
  written : List UInt8

/-- What a handle held when it was committed with success. -/
structure Committed where
  target : Path
  written : List UInt8

/-- What can be done with handles. They are numbered in the order in which they were started. -/
inductive WriteCall where
  | start (target : Path)
  /-- The data are those that the file has taken. -/
  | write (number : Nat) (data : List UInt8)
  | flush (number : Nat)
  /-- Flushing and storing what was written has succeeded or failed by itself. -/
  | commit (number : Nat) (stored : Except IoError Unit)
  | abort (number : Nat)
  | drop (number : Nat)
  | read (path : Path)

inductive WriteAnswer where
  | done (result : Except Error Unit)
  | content (result : Except IoError (List UInt8))
  /-- There is no open handle of this number. -/
  | unknown

/-- Files, the handles started so far, and what was committed. -/
structure Writers where
  files : FileSystem
  /-- The handles by number. Nothing is left of one that is not in use any more. -/
  writes : List (Option OpenWrite)
  /-- What was committed, the latest last. -/
  commits : List Committed

def WriteCall.target? : WriteCall → Option Path
  | start target => some target
  | _ => none

/-- Whether a call put something at its target. -/
def WriteCall.Commits (call : WriteCall) (answer : WriteAnswer) : Prop :=
  match call, answer with
  | .commit _ _, .done (.ok ()) => True
  | _, _ => False

namespace Writers

def new (files : FileSystem) : Writers :=
  ⟨files, [], []⟩

def write? (state : Writers) (number : Nat) : Option OpenWrite :=
  state.writes[number]?.join

def add (state : Writers) (write : OpenWrite) (files : FileSystem) : Writers :=
  { state with files, writes := state.writes ++ [some write] }

/-- Puts something else for the handle of a number, and nothing once its use has ended. -/
def replace (state : Writers) (number : Nat) (replacement : Option OpenWrite)
    (files : FileSystem) : Writers :=
  { state with files, writes := state.writes.set number replacement }

def perform (state : Writers) (call : WriteCall) : WriteAnswer × Writers :=
  match call with
  | .start target =>
    match WriteHandle.start state.files target with
    | .ok (handle, files) => (.done (.ok ()), state.add ⟨handle, []⟩ files)
    | .error error => (.done (.error error), state)
  | .write number data =>
    match state.write? number with
    | none => (.unknown, state)
    | some write =>
      (.done (.ok ()), state.replace number (some { write with written := write.written ++ data })
        (write.handle.write state.files data))
  | .flush number =>
    match state.write? number with
    | none => (.unknown, state)
    | some _ => (.done (.ok ()), state)
  | .commit number stored =>
    match state.write? number with
    | none => (.unknown, state)
    | some write =>
      match write.handle.commit stored state.files with
      | (.ok (), files) =>
        (.done (.ok ()), { state.replace number none files with
          commits := state.commits ++ [⟨write.handle.target, write.written⟩] })
      | (.error error, files) => (.done (.error error), state.replace number none files)
  | .abort number | .drop number =>
    match state.write? number with
    | none => (.unknown, state)
    | some write => (.done (.ok ()), state.replace number none (write.handle.abort state.files))
  | .read path => (.content (state.files.read path), state)

def after (state : Writers) (calls : List WriteCall) : Writers :=
  calls.foldl (fun current call => (current.perform call).2) state

end Writers

namespace FileSystem

/-- What was committed last at the place of a path. -/
def lastCommitted? (files : FileSystem) (commits : List Committed) (path : Path) :
    Option (List UInt8) :=
  (commits.reverse.find? fun commit => files.place? commit.target = files.place? path).map
    (·.written)

/-- What a path leads to after some commits, given what it led to before. -/
def shown? (files : FileSystem) (commits : List Committed) (path : Path) : Option Node :=
  match files.lastCommitted? commits path with
  | some written => some (.file (.bytes written))
  | none => files.nodeAt? path

/-- No temporary file ever lies at the place of a target. -/
def KeepsApart (files : FileSystem) (calls : List WriteCall) : Prop :=
  ∀ earlier, earlier <+: calls → ∀ target ∈ calls.filterMap WriteCall.target?,
    ∀ number write, ((Writers.new files).after earlier).write? number = some write →
      files.place? target ≠ some write.handle.location

/-- What holds of handles that are used in whatever order. -/
structure WritesAtomically (files : FileSystem) (calls : List WriteCall) : Prop where
  /-- At every moment, what is at a target is what was there at first, or all that was written to
  the handle committed there last. -/
  visible : ∀ earlier, earlier <+: calls → ∀ target ∈ calls.filterMap WriteCall.target?,
    ((Writers.new files).after earlier).files.nodeAt? target =
      files.shown? ((Writers.new files).after earlier).commits target
  /-- Nothing else is ever read there. -/
  readable : ∀ earlier target data, earlier ++ [.read target] <+: calls →
    target ∈ calls.filterMap WriteCall.target? →
    ((((Writers.new files).after earlier).perform (.read target)).1 = .content (.ok data) ↔
      files.shown? ((Writers.new files).after earlier).commits target =
        some (.file (.bytes data)))
  /-- Whatever does not commit with success leaves all targets as they are. -/
  untouched : ∀ earlier call, earlier ++ [call] <+: calls →
    ¬call.Commits (((Writers.new files).after earlier).perform call).1 →
    ∀ target ∈ calls.filterMap WriteCall.target?,
      ((Writers.new files).after (earlier ++ [call])).files.nodeAt? target =
        ((Writers.new files).after earlier).files.nodeAt? target
  /-- Once no handle is in use, nothing is left of the temporary files. -/
  removed : (∀ number, ((Writers.new files).after calls).write? number = none) →
    ∀ earlier, earlier <+: calls → ∀ number write,
      ((Writers.new files).after earlier).write? number = some write →
      ((Writers.new files).after calls).files.node? write.handle.location = none
  /-- Places that are neither targets nor temporary files are left alone. -/
  undisturbed : ∀ earlier, earlier <+: calls → ∀ location,
    (∀ target ∈ calls.filterMap WriteCall.target?, files.place? target ≠ some location) →
    (∀ number write, ((Writers.new files).after earlier).write? number = some write →
      write.handle.location ≠ location) →
    ((Writers.new files).after earlier).files.node? location = files.node? location

/-- What is at a place after some commits, given what was there before. -/
def settled? (files : FileSystem) (commits : List Committed) (location : Location) : Option Node :=
  match commits.reverse.find? fun commit => files.place? commit.target = some location with
  | some commit => some (.file (.bytes commit.written))
  | none => files.node? location

variable {files : FileSystem} {commits : List Committed} {commit : Committed} {path : Path}
  {location other : Location}

theorem settled?_concat (place : files.place? commit.target = some location) :
    files.settled? (commits ++ [commit]) other =
      if other = location then some (.file (.bytes commit.written))
      else files.settled? commits other := by
  by_cases same : other = location
  · simp [settled?, place, same]
  · simp [settled?, place, same, Ne.symm same]

/-- A place where nothing was committed is as it was. -/
theorem settled?_of_uncommitted
    (uncommitted : ∀ commit ∈ commits, files.place? commit.target ≠ some location) :
    files.settled? commits location = files.node? location := by
  have nothing : (commits.reverse.find? fun commit => files.place? commit.target = some location) =
      none := by
    simpa using uncommitted
  simp [settled?, nothing]

theorem shown?_eq_settled? (place : files.place? path = some location) :
    files.shown? commits path = files.settled? commits location := by
  simp only [shown?, lastCommitted?, settled?, place, nodeAt?_of_place? place]
  cases commits.reverse.find? fun commit => files.place? commit.target = some location <;> rfl

/-- Nothing is committed where there is no place for it. -/
theorem shown?_of_no_place (nowhere : files.place? path = none)
    (placed : ∀ commit ∈ commits, (files.place? commit.target).isSome) :
    files.shown? commits path = none := by
  have nothing :
      (commits.reverse.find? fun commit => files.place? commit.target = files.place? path) =
        none := by
    simpa [nowhere, Option.isSome_iff_ne_none] using placed
  simp [shown?, lastCommitted?, nothing, nodeAt?_of_no_place nowhere]

end FileSystem

namespace Writers

open FileSystem

variable {state : Writers} {number other : Nat} {write : OpenWrite} {files : FileSystem}

@[simp]
theorem files_add (state : Writers) (write : OpenWrite) (files : FileSystem) :
    (state.add write files).files = files :=
  rfl

@[simp]
theorem commits_add (state : Writers) (write : OpenWrite) (files : FileSystem) :
    (state.add write files).commits = state.commits :=
  rfl

@[simp]
theorem files_replace (state : Writers) (number : Nat) (replacement : Option OpenWrite)
    (files : FileSystem) : (state.replace number replacement files).files = files :=
  rfl

@[simp]
theorem commits_replace (state : Writers) (number : Nat) (replacement : Option OpenWrite)
    (files : FileSystem) : (state.replace number replacement files).commits = state.commits :=
  rfl

theorem write?_add (state : Writers) (write : OpenWrite) (files : FileSystem) (other : Nat) :
    (state.add write files).write? other =
      if other = state.writes.length then some write else state.write? other := by
  simp only [write?, add, List.getElem?_append]
  rcases Nat.lt_trichotomy other state.writes.length with before | same | behind
  · simp [before, Nat.ne_of_lt before]
  · simp [same]
  · have beyond : [some write][other - state.writes.length]? = none :=
      List.getElem?_eq_none (by simp; omega)
    simp [Nat.lt_asymm behind, Nat.ne_of_gt behind, beyond]

theorem write?_replace (present : state.write? number = some write)
    (replacement : Option OpenWrite) (files : FileSystem) (other : Nat) :
    (state.replace number replacement files).write? other =
      if other = number then replacement else state.write? other := by
  have inside : number < state.writes.length := by
    by_contra outside
    simp [write?, List.getElem?_eq_none (Nat.le_of_not_lt outside)] at present
  simp only [write?, replace, List.getElem?_set]
  by_cases same : other = number
  · simp [same, inside]
  · simp [same, Ne.symm same]

/-- What is kept while handles are used that are started for some targets. Places are accounted for
by what was committed, all but those of the temporary files. -/
structure Accounted (state : Writers) (files : FileSystem) (targets : List Path) : Prop where
  wider : state.files.Extends files
  narrower : files.Extends state.files
  isOpen : ∀ number write, state.write? number = some write →
    write.handle.Open state.files write.written
  targeted : ∀ number write, state.write? number = some write → write.handle.target ∈ targets
  distinct : ∀ first second left right, state.write? first = some left →
    state.write? second = some right → left.handle.location = right.handle.location →
    first = second
  placed : ∀ commit ∈ state.commits, commit.target ∈ targets ∧ (files.place? commit.target).isSome
  settled : ∀ location,
    (∀ number write, state.write? number = some write → write.handle.location ≠ location) →
    state.files.node? location = files.settled? state.commits location
  vacant : ∀ number write, state.write? number = some write →
    files.settled? state.commits write.handle.location = none

theorem accounted_new (files : FileSystem) (targets : List Path) :
    (new files).Accounted files targets where
  wider := .refl files
  narrower := .refl files
  isOpen := by simp [new, write?]
  targeted := by simp [new, write?]
  distinct := by simp [new, write?]
  placed := by simp [new]
  settled := by simp [new, settled?]
  vacant := by simp [new, write?]

namespace Accounted

variable {targets : List Path} (accounted : state.Accounted files targets)

include accounted

theorem place?_eq : state.files.place? = files.place? :=
  accounted.wider.place?_eq accounted.narrower

/-- A handle is started at a place where neither a temporary file is nor anything else. -/
theorem start {target : Path} {handle : WriteHandle} {next : FileSystem}
    (started : WriteHandle.start state.files target = .ok (handle, next))
    (targetMem : target ∈ targets) :
    (state.add ⟨handle, []⟩ next).Accounted files targets := by
  have opened := WriteHandle.open_of_start started
  rcases WriteHandle.start_eq_ok started with ⟨_, targetEq, _, _, free, _⟩
  rcases WriteHandle.extends_of_start started with ⟨wider, narrower⟩
  have node : ∀ location, location ≠ handle.location →
      next.node? location = state.files.node? location := by
    intro location different
    rw [WriteHandle.node?_of_start started, if_neg different]
  have apart : ∀ number write, state.write? number = some write →
      write.handle.location ≠ handle.location := by
    intro number write present same
    simp [same ▸ (accounted.isOpen number write present).present] at free
  refine ⟨wider.trans accounted.wider, accounted.narrower.trans narrower, ?_, ?_, ?_,
    accounted.placed, ?_, ?_⟩
  · intro number write present
    rw [write?_add] at present
    split at present
    · cases present
      exact opened
    · exact (accounted.isOpen number write present).congr (wider.place?_eq narrower)
        (node _ (apart number write present))
  · intro number write present
    rw [write?_add] at present
    split at present
    · cases present
      exact targetEq ▸ targetMem
    · exact accounted.targeted number write present
  · intro first second left right leftPresent rightPresent same
    rw [write?_add] at leftPresent rightPresent
    split at leftPresent <;> split at rightPresent
    · omega
    · cases leftPresent
      exact absurd same.symm (apart second right rightPresent)
    · cases rightPresent
      exact absurd same (apart first left leftPresent)
    · exact accounted.distinct first second left right leftPresent rightPresent same
  · intro location unoccupied
    have different : location ≠ handle.location := by
      intro same
      exact unoccupied state.writes.length ⟨handle, []⟩ (by rw [write?_add, if_pos rfl]) same.symm
    rw [files_add, commits_add, node location different]
    apply accounted.settled
    intro number write present
    have later : number ≠ state.writes.length := by
      rintro rfl
      simp [write?] at present
    exact unoccupied number write (by rw [write?_add, if_neg later, present])
  · intro number write present
    rw [write?_add] at present
    split at present
    · cases present
      rw [commits_add, ← accounted.settled _ apart, free]
    · exact accounted.vacant number write present

/-- What is done with one handle shows in its temporary file alone, which goes with it. -/
theorem revise {next : FileSystem} (present : state.write? number = some write)
    (replacement : Option OpenWrite) (wider : next.Extends state.files)
    (narrower : state.files.Extends next)
    (node : ∀ location, location ≠ write.handle.location →
      next.node? location = state.files.node? location)
    (kept : ∀ later ∈ replacement, later.handle = write.handle ∧
      later.handle.Open next later.written)
    (gone : replacement = none → next.node? write.handle.location = none) :
    (state.replace number replacement next).Accounted files targets := by
  have handleOf : ∀ other later, (state.replace number replacement next).write? other = some later →
      ∃ earlier, state.write? other = some earlier ∧ later.handle = earlier.handle := by
    intro other later laterPresent
    rw [write?_replace present] at laterPresent
    split at laterPresent
    · rename_i same
      exact ⟨write, same ▸ present, (kept later laterPresent).1⟩
    · exact ⟨later, laterPresent, rfl⟩
  refine ⟨wider.trans accounted.wider, accounted.narrower.trans narrower, ?_, ?_, ?_,
    accounted.placed, ?_, ?_⟩
  · intro other later laterPresent
    rw [write?_replace present] at laterPresent
    split at laterPresent
    · exact (kept later laterPresent).2
    · rename_i different
      refine (accounted.isOpen other later laterPresent).congr (wider.place?_eq narrower)
        (node _ ?_)
      intro same
      exact different (accounted.distinct other number later write laterPresent present same)
  · intro other later laterPresent
    rcases handleOf other later laterPresent with ⟨earlier, earlierPresent, same⟩
    exact same ▸ accounted.targeted other earlier earlierPresent
  · intro first second left right leftPresent rightPresent same
    rcases handleOf first left leftPresent with ⟨leftEarlier, leftWas, leftSame⟩
    rcases handleOf second right rightPresent with ⟨rightEarlier, rightWas, rightSame⟩
    exact accounted.distinct first second leftEarlier rightEarlier leftWas rightWas
      (by rw [← leftSame, ← rightSame, same])
  · intro location unoccupied
    by_cases atTemporary : location = write.handle.location
    · rw [files_replace, commits_replace, atTemporary, accounted.vacant number write present]
      cases replacement with
      | none => exact gone rfl
      | some later =>
        have same := (kept later rfl).1
        exact absurd (by rw [same, atTemporary])
          (unoccupied number later (by rw [write?_replace present, if_pos rfl]))
    · rw [files_replace, commits_replace, node location atTemporary]
      apply accounted.settled
      intro other earlier earlierPresent
      by_cases same : other = number
      · obtain rfl : write = earlier := by simpa [same, present] using earlierPresent
        exact Ne.symm atTemporary
      · exact unoccupied other earlier (by rw [write?_replace present, if_neg same, earlierPresent])
  · intro other later laterPresent
    rcases handleOf other later laterPresent with ⟨earlier, earlierPresent, same⟩
    rw [same]
    exact accounted.vacant other earlier earlierPresent

theorem written (present : state.write? number = some write) (data : List UInt8) :
    (state.replace number (some { write with written := write.written ++ data })
      (write.handle.write state.files data)).Accounted files targets := by
  have opened := accounted.isOpen number write present
  apply accounted.revise present
  · rw [opened.write_eq]
    exact extends_put fun isDirectory => absurd isDirectory opened.not_isDirectory
  · rw [opened.write_eq]
    exact extends_of_put_file
  · intro location different
    rw [opened.write_eq, node?_put_of_ne_root opened.location_ne_root, if_neg different]
  · rintro later ⟨⟩
    exact ⟨rfl, opened.open_write⟩
  · rintro ⟨⟩

/-- A handle that is given up takes its temporary file along. -/
theorem closed (present : state.write? number = some write) :
    (state.replace number none (state.files.erase write.handle.location)).Accounted files
      targets := by
  have opened := accounted.isOpen number write present
  apply accounted.revise present none (extends_erase opened.not_isDirectory) extends_of_erase
  · intro location different
    rw [node?_erase_of_ne_root opened.location_ne_root, if_neg different]
  · rintro later ⟨⟩
  · intro _
    rw [node?_erase_of_ne_root opened.location_ne_root, if_pos rfl]

/-- A file is put at the place of a target. -/
theorem settle {target : Path} {location : Location} (written : List UInt8)
    (targetMem : target ∈ targets) (place : files.place? target = some location)
    (notDirectory : ¬state.files.IsDirectory location)
    (apart : ∀ number write, state.write? number = some write → write.handle.location ≠ location) :
    ({ state with
        files := state.files.put location (.file (.bytes written))
        commits := state.commits ++ [⟨target, written⟩] } : Writers).Accounted files targets := by
  have wider : (state.files.put location (.file (.bytes written))).Extends state.files :=
    extends_put fun isDirectory => absurd isDirectory notDirectory
  have notRoot := ne_root_of_not_isDirectory notDirectory
  have settledAt : ∀ other, files.settled? (state.commits ++ [⟨target, written⟩]) other =
      if other = location then some (.file (.bytes written))
      else files.settled? state.commits other :=
    fun other => settled?_concat place
  refine ⟨wider.trans accounted.wider, accounted.narrower.trans extends_of_put_file, ?_,
    accounted.targeted, accounted.distinct, ?_, ?_, ?_⟩
  · intro number write present
    apply (accounted.isOpen number write present).congr (wider.place?_eq extends_of_put_file)
    rw [node?_put_of_ne_root notRoot, if_neg (apart number write present)]
  · intro commit commitMem
    rcases List.mem_append.mp commitMem with earlier | latest
    · exact accounted.placed commit earlier
    · obtain rfl := List.mem_singleton.mp latest
      exact ⟨targetMem, by simp [place]⟩
  · intro other unoccupied
    rw [settledAt, node?_put_of_ne_root notRoot, ← accounted.settled other unoccupied]
  · intro number write present
    rw [settledAt, if_neg (apart number write present)]
    exact accounted.vacant number write present

end Accounted

/-- The handles in use leave the places of some targets alone. -/
def Spares (state : Writers) (files : FileSystem) (targets : List Path) : Prop :=
  ∀ target ∈ targets, ∀ number write, state.write? number = some write →
    files.place? target ≠ some write.handle.location

theorem Accounted.finished {targets : List Path} (accounted : state.Accounted files targets)
    (spares : state.Spares files targets) (present : state.write? number = some write)
    (stored : Except IoError Unit) :
    (state.perform (.commit number stored)).2.Accounted files targets := by
  have opened := accounted.isOpen number write present
  have closed := accounted.closed present
  simp only [perform, present]
  rcases opened.commit_cases stored with ⟨location, _, admits, committed⟩ | ⟨cause, committed⟩
  · have targetMem := accounted.targeted number write present
    have place : files.place? write.handle.target = some location :=
      accounted.place?_eq ▸ admits.place
    simp only [committed]
    apply closed.settle write.written targetMem place
    · exact fun isDirectory => admits.free (extends_of_erase.directory isDirectory)
    · intro other later laterPresent same
      rw [write?_replace present] at laterPresent
      split at laterPresent
      · cases laterPresent
      · exact spares _ targetMem other later laterPresent (same ▸ place)
  · simpa only [committed] using closed

/-- What is kept is kept by every call. -/
theorem Accounted.perform {targets : List Path} (accounted : state.Accounted files targets)
    (spares : state.Spares files targets) (call : WriteCall)
    (targeted : ∀ target ∈ call.target?, target ∈ targets) :
    (state.perform call).2.Accounted files targets := by
  cases call with
  | start target =>
    simp only [Writers.perform]
    split
    · rename_i handle next started
      exact accounted.start started (targeted target rfl)
    · exact accounted
  | write number data =>
    simp only [Writers.perform]
    split
    · exact accounted
    · rename_i write present
      exact accounted.written present data
  | flush number =>
    simp only [Writers.perform]
    split <;> exact accounted
  | commit number stored =>
    rcases present : state.write? number with _ | write
    · simpa only [Writers.perform, present] using accounted
    · exact accounted.finished spares present stored
  | abort number | drop number =>
    simp only [Writers.perform]
    split
    · exact accounted
    · rename_i write present
      rw [(accounted.isOpen number write present).abort_eq]
      exact accounted.closed present
  | read path => exact accounted

theorem after_concat (state : Writers) (earlier : List WriteCall) (call : WriteCall) :
    state.after (earlier ++ [call]) = ((state.after earlier).perform call).2 := by
  simp [after]

theorem accounted_after {calls earlier : List WriteCall} (apart : files.KeepsApart calls)
    (isPrefix : earlier <+: calls) :
    ((new files).after earlier).Accounted files (calls.filterMap WriteCall.target?) := by
  induction earlier using List.reverseRecOn with
  | nil => exact accounted_new files _
  | append_singleton earlier call inductionHypothesis =>
    have before := (List.prefix_append earlier [call]).trans isPrefix
    have callMem : call ∈ calls := isPrefix.subset (by simp)
    rw [after_concat]
    apply (inductionHypothesis before).perform (apart earlier before)
    intro target targetEq
    exact List.mem_filterMap.mpr ⟨call, callMem, targetEq⟩

theorem commits_perform {call : WriteCall} (leaves : ¬call.Commits (state.perform call).1) :
    (state.perform call).2.commits = state.commits := by
  cases call with
  | start target =>
    simp only [perform]
    split <;> rfl
  | write number data | flush number | abort number | drop number =>
    simp only [perform]
    split <;> rfl
  | commit number stored =>
    simp only [perform] at leaves ⊢
    split
    · rfl
    · rename_i write present
      rw [present] at leaves
      split
      · rename_i finished
        simp [finished, WriteCall.Commits] at leaves
      · rfl
  | read path => rfl

theorem Accounted.nodeAt?_eq_shown? {targets : List Path} {target : Path}
    (accounted : state.Accounted files targets) (spares : state.Spares files targets)
    (targetMem : target ∈ targets) :
    state.files.nodeAt? target = files.shown? state.commits target := by
  rcases place : files.place? target with _ | location
  · rw [nodeAt?_of_no_place (accounted.place?_eq ▸ place),
      shown?_of_no_place place fun commit commitMem => (accounted.placed commit commitMem).2]
  · rw [nodeAt?_of_place? (accounted.place?_eq ▸ place), shown?_eq_settled? place]
    apply accounted.settled
    intro number write present same
    exact spares target targetMem number write present (same ▸ place)

/-- Nothing but a target is committed to. -/
theorem Accounted.settled?_eq {targets : List Path} {location : Location}
    (accounted : state.Accounted files targets)
    (untargeted : ∀ target ∈ targets, files.place? target ≠ some location) :
    files.settled? state.commits location = files.node? location :=
  settled?_of_uncommitted fun commit commitMem =>
    untargeted _ (accounted.placed commit commitMem).1

end Writers

namespace FileSystem

open Writers

variable {files : FileSystem} {calls : List WriteCall}

/-- Handles write atomically as long as their temporary files are left alone. -/
theorem writesAtomically_of_keepsApart (apart : files.KeepsApart calls) :
    files.WritesAtomically calls := by
  have visible : ∀ earlier, earlier <+: calls → ∀ target ∈ calls.filterMap WriteCall.target?,
      ((Writers.new files).after earlier).files.nodeAt? target =
        files.shown? ((Writers.new files).after earlier).commits target :=
    fun earlier isPrefix target targetMem =>
      (accounted_after apart isPrefix).nodeAt?_eq_shown? (apart earlier isPrefix) targetMem
  refine ⟨visible, ?_, ?_, ?_, ?_⟩
  · intro earlier target data isPrefix targetMem
    have before := (List.prefix_append earlier [.read target]).trans isPrefix
    simp only [perform, WriteAnswer.content.injEq]
    rw [read_eq_ok_iff, visible earlier before target targetMem]
  · intro earlier call isPrefix leaves target targetMem
    have before := (List.prefix_append earlier [call]).trans isPrefix
    rw [visible _ isPrefix target targetMem, visible _ before target targetMem, after_concat,
      commits_perform leaves]
  · intro finished earlier isPrefix number write present
    have untargeted := fun target targetMem =>
      apart earlier isPrefix target targetMem number write present
    have accounted := accounted_after apart isPrefix
    have final := accounted_after apart List.prefix_rfl
    rw [final.settled _ (by simp [finished]), final.settled?_eq untargeted,
      ← accounted.settled?_eq untargeted]
    exact accounted.vacant number write present
  · intro earlier isPrefix location untargeted unoccupied
    have accounted := accounted_after apart isPrefix
    rw [accounted.settled location unoccupied, accounted.settled?_eq untargeted]

/-- A file of one byte in a working directory. -/
def smallDisk : FileSystem :=
  (withWorkingDirectory [[0x77]]).put [[0x77], [0x61]] (.file (.bytes [1]))

/-- Two handles on the file and one on a new file are written to in turn. One of the two is
committed before the other, the third fails to be stored, and two more are given up. -/
def crossedCalls : List WriteCall :=
  [.start ⟨[0x61]⟩, .start ⟨[0x61]⟩, .start ⟨[0x62]⟩, .write 0 [10], .write 1 [20], .read ⟨[0x61]⟩,
    .write 0 [11], .flush 1, .commit 1 (.ok ()), .read ⟨[0x61]⟩, .write 2 [30],
    .commit 2 (.error (.custom .other "disk quota exceeded")), .start ⟨[0x61]⟩, .write 3 [40],
    .abort 3, .start ⟨[0x62]⟩, .drop 4, .commit 0 (.ok ()), .read ⟨[0x61]⟩]

theorem mem_writes_of_write? {state : Writers} {number : Nat} {write : OpenWrite}
    (present : state.write? number = some write) : write ∈ state.writes.filterMap id := by
  simp only [write?, Option.join_eq_some_iff] at present
  simpa using List.mem_of_getElem? present

theorem writesAtomically_crossedCalls :
    smallDisk.KeepsApart crossedCalls ∧ smallDisk.WritesAtomically crossedCalls ∧
      ((Writers.new smallDisk).after crossedCalls).files.nodeAt? ⟨[0x61]⟩ =
        some (.file (.bytes [10, 11])) := by
  have apart : smallDisk.KeepsApart crossedCalls := by
    have checked : ∀ earlier ∈ crossedCalls.inits,
        ∀ target ∈ crossedCalls.filterMap WriteCall.target?,
          ∀ write ∈ ((Writers.new smallDisk).after earlier).writes.filterMap id,
            smallDisk.place? target ≠ some write.handle.location := by
      decide +kernel
    intro earlier isPrefix target targetMem number write present
    exact checked earlier ((List.mem_inits _ _).mpr isPrefix) target targetMem write
      (mem_writes_of_write? present)
  exact ⟨apart, writesAtomically_of_keepsApart apart, by decide +kernel⟩

end FileSystem

end Thumbnails
