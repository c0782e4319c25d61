import Narrative.Catalog

set_option autoImplicit false

/-!
# The world of a run

Everything that changes while an engine runs: the game, the scenes it asked for, the
journal of calls, the engine's counters and guards, and a trace of what happened.

Each scene that is asked for gets a token. A token is resumed at most once: the first
attempt uses it up and every later one does nothing (`World.resume`).

The trace keeps every moment of a run that an observer may ask about, newest first,
each with the game and the depth as they were then. Nothing in a run reads it.
-/

namespace Narrative

/-- What remains to be done after a scene: the actions, and the engine that runs them. -/
structure Sequel where
  engine : Nat
  actions : List Action

/-- Whether a token was used up, and whether its sequel ran. -/
inductive TokenStatus where
  | pending
  | resumed
  | lapsed
deriving DecidableEq, Repr

/-- The claim to resume what a scene interrupted, with the answer to the scene. -/
structure SceneToken where
  request : SceneRequest
  answer : Playback
  sequel : Option Sequel
  status : TokenStatus := .pending

/-- Counts of what an engine did. -/
structure Counters where
  dispatches : Nat := 0
  eventsFired : Nat := 0
  actionsExecuted : Nat := 0
  continuationsResumed : Nat := 0
  depthLimitHits : Nat := 0
  cyclesSkipped : Nat := 0
  unknownEvaluations : Nat := 0
deriving DecidableEq, Repr

/-- One call to the game, with the answer it got. -/
inductive Entry where
  | effect (effect : Effect) (accepted : Bool)
  | scene (request : SceneRequest) (answer : Playback)
deriving DecidableEq, Repr

/-- The entry of a scene of some kind with its answer filled in. Other entries stay as they
are. -/
def Entry.answered (kind : SceneKind) (answer : Playback) : Entry → Entry
  | .scene request before => .scene request (if request.kind = kind then answer else before)
  | entry => entry

/-- Whether a call changed the inventory. -/
def Entry.mutatesInventory : Entry → Bool
  | .effect (.giveItem ..) _ => true
  | .effect (.grantReward _) _ => true
  | .effect (.takeItem ..) accepted => accepted
  | _ => false

/-- What an attempt to resume a token comes to: the sequel runs, or nobody is left to run it,
or the token was used up before. -/
inductive Resumption where
  | continued
  | lapsed
  | ignored
deriving DecidableEq, Repr

/-- What an observer sees of a run. -/
inductive Happening where
  /-- The game was called. -/
  | called (entry : Entry)
  /-- An occurrence was submitted, at a depth and with these events in flight. -/
  | dispatched (depth : UInt32) (inFlight : List Nat) (admitted : Bool)
  /-- The actions of an event were begun. -/
  | began (candidate : Candidate)
  /-- Somebody resumed a token. -/
  | resumed (token : Nat) (outcome : Resumption)
  /-- The action that asked for the scene of a token is over. -/
  | returned (token : Nat)
  /-- An engine was dropped. -/
  | engineLost (serial : Nat)
  /-- A call was nested deeper than the interpreter goes. -/
  | stalled

/-- Something that happened, with the game as it was then and the number of dispatches that were
open. -/
structure Moment where
  happening : Happening
  game : Game
  depth : UInt32

/-- The state of a run. `tokens` holds one token per scene asked for, in order; `queue` the
numbers of those parked in the session, oldest first; `kept` the numbers of those whose
callbacks the embedding program keeps. `depth` counts the dispatches that are open, and
`inFlight` lists the positions of the events being executed, innermost first. -/
structure World where
  game : Game := {}
  tokens : List SceneToken := []
  queue : List Nat := []
  kept : List Nat := []
  journal : List Entry := []
  counters : Counters := {}
  depth : UInt32 := 0
  inFlight : List Nat := []
  trace : List Moment := []

namespace World

/-- Changes the counters. -/
def count (w : World) (f : Counters → Counters) : World :=
  { w with counters := f w.counters }

/-- Counts an action that is about to run. -/
def started (w : World) : World :=
  w.count fun n => { n with actionsExecuted := n.actionsExecuted + 1 }

/-- Notes what happens. -/
def note (w : World) (h : Happening) : World :=
  { w with trace := ⟨h, w.game, w.depth⟩ :: w.trace }

/-- Changes the game. -/
def changeGame (w : World) (f : Game → Game) : World :=
  { w with game := f w.game }

/-! ## Guards -/

/-- Opens a dispatch. -/
def enter (w : World) : World := { w with depth := w.depth + 1 }

/-- Closes a dispatch. -/
def leave (w : World) : World :=
  { w with depth := if w.depth = 0 then 0 else w.depth - 1 }

/-- Puts the event at a position in flight. -/
def takeOff (w : World) (position : Nat) : World :=
  { w with inFlight := position :: w.inFlight }

/-- Takes the event at a position out of flight: of several entries the innermost goes. -/
def land (w : World) (position : Nat) : World :=
  { w with inFlight := w.inFlight.erase position }

/-! ## Tokens -/

/-- Hands out a token for a scene. -/
def hand (w : World) (request : SceneRequest) (answer : Playback) (sequel : Option Sequel) :
    World :=
  { w with tokens := w.tokens ++ [{ request, answer, sequel }] }

/-- Uses up a token. -/
def spend (w : World) (token : Nat) (status : TokenStatus) : World :=
  { w with tokens := w.tokens.modify token fun t => { t with status } }

/-- Uses up a token whose sequel is about to run. -/
def redeem (w : World) (token : Nat) : World :=
  ((w.spend token .resumed).note (.resumed token .continued)).count fun n =>
    { n with continuationsResumed := n.continuationsResumed + 1 }

/-- Uses up a token whose sequel nobody is left to run. -/
def lapse (w : World) (token : Nat) : World :=
  (w.spend token .lapsed).note (.resumed token .lapsed)

/-- Resumes a token. The first time its sequel runs, if it has one and `follow` knows who runs
it; later nothing happens. -/
def resume (follow : Sequel → Option (World → World)) (token : Nat) (w : World) : World :=
  match w.tokens[token]? with
  | none => w
  | some t =>
      if t.status = .pending then
        match t.sequel.bind follow with
        | some run => run (w.redeem token)
        -- the token is used up even if nobody is left to act on it
        | none => w.lapse token
      else w.note (.resumed token .ignored)

end World

end Narrative
