import Thumbnails.Proofs.Cache.Simulation

/-!
# Turns

`Session.step` lets the loader work until it can do no more after every command. The loader of a
session may as well be slow, so here commands and single steps of the loader take turns in any
order, and every list of turns is a run.

What holds of a session holds after a run if no turn breaks it. Commands nest: those that take
results out of the inbox call handlers, which carry out commands of their own. `Session.Keeps` has
one condition for each thing that a turn is made of in the end.
-/

namespace Thumbnails

/-- What a session does next. -/
inductive SessionTurn where
  | command (command : Command)
  /-- One step of the loader, if there is anything for it to do. -/
  | loader

/-- Whether a command takes results out of the inbox. -/
def Command.delivers : Command → Bool
  | process => true
  | wait => true
  | _ => false

namespace Session

variable {setup : Setup} {session next : Session} {command : Command}
  {allowed : Command → Prop} {holds : Session → Prop}

theorem holds_performAll {perform : Session → Command → Reply × Session}
    (performs : ∀ session command, allowed command → holds session →
      holds (perform session command).2)
    (commands : List Command) (session : Session)
    (allows : ∀ command ∈ commands, allowed command) (held : holds session) :
    holds (performAll perform commands session).2 := by
  induction commands generalizing session with
  | nil => exact held
  | cons command commands inductionHypothesis =>
    apply inductionHypothesis
    · intro other otherMem
      exact allows other (List.mem_cons_of_mem _ otherMem)
    · exact performs session command (allows command List.mem_cons_self) held

variable [ImageLibrary]

def takeTurn (setup : Setup) (session : Session) : SessionTurn → Session
  | .command command => (session.perform setup (session.outstanding + 1) command).2
  | .loader => (session.loaderStep? setup).getD session

def after (setup : Setup) (session : Session) (turns : List SessionTurn) : Session :=
  turns.foldl (takeTurn setup) session

theorem after_concat (session : Session) (turns : List SessionTurn) (turn : SessionTurn) :
    session.after setup (turns ++ [turn]) = (session.after setup turns).takeTurn setup turn := by
  simp [after]

theorem runLoaderFor_eq_after (fuel : Nat) (session : Session) :
    session.runLoaderFor setup fuel = session.after setup (List.replicate fuel .loader) := by
  induction fuel generalizing session with
  | zero => rfl
  | succ fuel inductionHypothesis =>
    rw [runLoaderFor, List.replicate_succ, after, List.foldl_cons, ← after, takeTurn]
    cases progress : session.loaderStep? setup with
    | some next => exact inductionHypothesis next
    | none =>
      rw [Option.getD_none, ← inductionHypothesis]
      cases fuel with
      | zero => rfl
      | succ fuel => rw [runLoaderFor, progress]

/-- A step of a session is a command and then as many turns of the loader as it takes. -/
theorem step_eq_after (session : Session) (command : Command) :
    ∃ count, (session.step setup command).2 =
      after setup { session with journal := Journal.empty }
        (.command command :: List.replicate count .loader) := by
  let performed := ({ session with journal := Journal.empty }.perform setup
    (session.outstanding + 1) command).2
  refine ⟨performed.state.store.queuedCount + 1, ?_⟩
  rw [after, List.foldl_cons, ← after, ← runLoaderFor_eq_after]
  rfl

theorem reaches_takeTurn (session : Session) (turn : SessionTurn) :
    Reaches setup session (session.takeTurn setup turn) := by
  cases turn with
  | command command => exact reaches_perform _ session command
  | loader =>
    rw [takeTurn]
    cases progress : session.loaderStep? setup with
    | none => exact .refl session
    | some next => exact reaches_loaderStep progress

theorem reaches_after (session : Session) (turns : List SessionTurn) :
    Reaches setup session (session.after setup turns) := by
  induction turns using List.reverseRecOn with
  | nil => exact .refl session
  | append_singleton turns turn inductionHypothesis =>
    rw [after_concat]
    exact inductionHypothesis.trans (reaches_takeTurn _ turn)

/-- The state of a session is tidy after every turn. -/
theorem tidy_after_turns {config : Config} {files : FileSystem} {opened : Session}
    (opens : start config files = .ok opened) (turns : List SessionTurn) :
    ∃ view, (opened.after setup turns).state.Tidy view := by
  rcases reaches_after opened turns _ (shownBy_start opens) with ⟨_, _, _, _, stands⟩
  exact stands.tidy

/-- A property that no turn breaks, given which commands are carried out. -/
structure Keeps (setup : Setup) (allowed : Command → Prop) (holds : Session → Prop) : Prop where
  /-- Handlers carry out commands of this kind only. -/
  scripted : ∀ name, ∀ command ∈ setup.script name, allowed command
  /-- The inbox, the handlers and the journal do not matter. -/
  inert : ∀ {session next : Session}, holds session → next.state = session.state →
    next.files = session.files → next.loader = session.loader → holds next
  completed : ∀ (session : Session) (result : LoadResult), holds session →
    holds { session with state := (session.state.complete result).2 }
  performed : ∀ (depth : Nat) (session : Session) (command : Command), command.delivers = false →
    allowed command → holds session → holds (session.perform setup (depth + 1) command).2
  loaded : ∀ session next : Session, session.loaderStep? setup = some next → holds session →
    holds next

namespace Keeps

section Delivery

variable {perform : Session → Command → Reply × Session} (keeps : Keeps setup allowed holds)
  (performs : ∀ session command, allowed command → holds session →
    holds (perform session command).2)
include keeps performs

theorem tell (notice : Notice) (subscribers : List SubscriberId) (session : Session)
    (held : holds session) : holds (tell setup perform notice subscribers session) := by
  induction subscribers generalizing session with
  | nil => exact held
  | cons id subscribers inductionHypothesis =>
    rw [Session.tell]
    split
    · exact inductionHypothesis session held
    · rename_i name alive
      have entered : holds { session with handlers := session.handlers.enter name id } :=
        keeps.inert held rfl rfl rfl
      have called := holds_performAll performs (setup.script name) _ (keeps.scripted name) entered
      exact inductionHypothesis _ (keeps.inert called rfl rfl rfl)

theorem dispatch (held : holds session)
    (dispatched : dispatch? setup perform session = some next) : holds next := by
  simp only [dispatch?] at dispatched
  split at dispatched
  · cases dispatched
  · rename_i result results posted
    have applied : holds { session with
        state := (session.state.complete result).2, inbox := { session.inbox with results } } :=
      keeps.inert (keeps.completed session result held) rfl rfl rfl
    split at dispatched <;> cases dispatched
    · exact applied
    · exact keeps.tell performs _ _ _ applied

theorem drain (rounds : Nat) (session : Session) (held : holds session) :
    holds (drain setup perform rounds session).2 := by
  induction rounds generalizing session with
  | zero => exact held
  | succ rounds inductionHypothesis =>
    rw [Session.drain]
    split
    · exact held
    · rename_i next dispatched
      exact inductionHypothesis next (keeps.dispatch performs held dispatched)

end Delivery

variable (keeps : Keeps setup allowed holds)
include keeps

/-- A command keeps what it may not break, however deep handlers call handlers. -/
theorem perform (depth : Nat) (session : Session) (command : Command) (allows : allowed command)
    (held : holds session) : holds (session.perform setup depth command).2 := by
  induction depth generalizing session command with
  | zero => exact held
  | succ depth inductionHypothesis =>
    cases delivers : command.delivers with
    | false => exact keeps.performed depth session command delivers allows held
    | true =>
      cases command with
      | process => exact keeps.drain inductionHypothesis session.outstanding session held
      | wait =>
        rw [Session.perform]
        split
        · rename_i next dispatched
          exact keeps.dispatch inductionHypothesis held dispatched
        · exact held
      | _ => cases delivers

theorem after (turns : List SessionTurn)
    (allows : ∀ command, .command command ∈ turns → allowed command) (session : Session)
    (held : holds session) : holds (session.after setup turns) := by
  induction turns using List.reverseRecOn with
  | nil => exact held
  | append_singleton turns turn inductionHypothesis =>
    rw [after_concat]
    have earlier := inductionHypothesis fun command commandMem =>
      allows command (List.mem_append_left _ commandMem)
    cases turn with
    | command command =>
      exact keeps.perform _ _ command (allows command (by simp)) earlier
    | loader =>
      rw [takeTurn]
      cases progress : (session.after setup turns).loaderStep? setup with
      | none => exact earlier
      | some next => exact keeps.loaded _ _ progress earlier

end Keeps

end Session

end Thumbnails
