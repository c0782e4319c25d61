import Narrative.World

set_option autoImplicit false

/-!
# Receivers

Who receives an engine's calls. A receiver answers a call, and while the call is in its
hands it acts: it changes the game, parks or keeps tokens, and may resume them, the
one it was just given or an older one (`Receiver.acts`). It sees the whole world, so
what it does may depend on all that happened before.

Two receivers are built in. `Receiver.silent` has no game behind it;
`Receiver.session` is a game session, whose scenes are shown on a `Screen`.
-/

namespace Narrative

/-- A call in the hands of a receiver: an effect, or a scene with the number of its token. -/
inductive Call where
  | effect (effect : Effect)
  | scene (token : Nat) (request : SceneRequest)

/-- What a receiver does while a call is in its hands. -/
inductive Act where
  | change (f : Game → Game)
  | park (token : Nat)
  | keep (token : Nat)
  | resume (token : Nat)

/-- Carries out an act, given how tokens are resumed. -/
def Act.carry (resume : Nat → World → World) : Act → World → World
  | .change f, w => w.changeGame f
  | .park token, w => { w with queue := w.queue ++ [token] }
  | .keep token, w => { w with kept := w.kept ++ [token] }
  | .resume token, w => resume token w

/-- A receiver of calls: whether it lets items be taken, how it answers scenes, and what it
does during each call, in order. It resumes older tokens inside calls that are themselves
inside such a resumption at most `nesting` deep; without a bound a run need not end. -/
structure Receiver where
  removes : World → String → UInt32 → Bool
  answer : World → SceneRequest → Playback
  acts : World → Call → List Act
  nesting : Nat := 0

/-- How an engine is wired to its game: who receives its calls, and whether a journal of them
is kept. -/
structure Wiring where
  receiver : Receiver
  journaled : Bool

namespace Receiver

/-- Whether an effect is accepted. Only taking items can be refused. -/
def accepts (r : Receiver) (w : World) : Effect → Bool
  | .takeItem item quantity => r.removes w item quantity
  | _ => true

/-- Accepts what cannot be refused, takes no items and declines all scenes. -/
def silent : Receiver where
  removes _ _ _ := false
  answer _ _ := .declined
  acts _ _ := []

end Receiver

/-- What an embedding program does with the token of a scene: how often it resumes it before
it answers, whether it keeps a callback, and the answer. -/
structure Handling where
  calls : Nat
  keeps : Bool
  answer : Playback
deriving DecidableEq, Repr

/-- Who shows the scenes of a session: the session parks them until they are finished, or
finishes them at once, or an embedding program handles them, one way or another for each
token. -/
inductive Screen where
  | park
  | finishAtOnce
  | entrust (handling : Nat → Handling)

namespace Screen

/-- The answer to the scene of a token. -/
def answer : Screen → Nat → Playback
  | .park, _ => .started
  | .finishAtOnce, _ => .started
  | .entrust handling, token => (handling token).answer

/-- What is done with the token of a scene. A tutorial counts as seen once it is over. -/
def acts : Screen → Nat → SceneRequest → List Act
  | .park, token, _ => [.park token]
  | .finishAtOnce, token, request => [.change (·.seeTutorial request.tutorial?), .resume token]
  | .entrust handling, token, _ =>
      (if (handling token).keeps then [.keep token] else []) ++
        List.replicate (handling token).calls (.resume token)

end Screen

/-- A game session: it applies effects to its game and shows scenes on a screen. -/
def Receiver.session (screen : Screen) : Receiver where
  removes w item quantity := w.game.accepts (.takeItem item quantity)
  answer w _ := screen.answer w.tokens.length
  acts _
    | .effect e => [.change (·.apply e)]
    | .scene token request => screen.acts token request

namespace World

/-- Writes an entry into the journal, if one is kept. -/
def log (w : World) (wiring : Wiring) (entry : Entry) : World :=
  if wiring.journaled then { w with journal := w.journal ++ [entry] } else w

/-- Carries out what a receiver does during a call. -/
def carryOut (resume : Nat → World → World) (acts : List Act) (w : World) : World :=
  acts.foldl (fun w a => a.carry resume w) w

/-- Asks for an effect; says whether it was accepted. A taking is entered into the journal
once it is over, everything else before it is carried out. -/
def perform (wiring : Wiring) (revive : Nat → World → World) (e : Effect) (w : World) :
    Bool × World :=
  let accepted := wiring.receiver.accepts w e
  let entry : Entry := .effect e accepted
  let acts := wiring.receiver.acts w (.effect e)
  let w := w.note (.called entry)
  match e with
  | .takeItem .. => (accepted, (w.carryOut revive acts).log wiring entry)
  | _ => (accepted, (w.log wiring entry).carryOut revive acts)

/-- Asks for effects in order; says whether any was accepted. -/
def performAll (wiring : Wiring) (revive : Nat → World → World) :
    List Effect → World → Bool × World
  | [], w => (false, w)
  | e :: rest, w =>
      let (accepted, w) := w.perform wiring revive e
      let (any, w) := performAll wiring revive rest w
      (accepted || any, w)

/-- Hands out the token of a scene and asks for the scene. As long as the answer is not known its
entry in the journal says that the scene has started. -/
def ask (w : World) (wiring : Wiring) (request : SceneRequest) (answer : Playback)
    (sequel : Option Sequel) : World :=
  ((w.hand request answer sequel).note (.called (.scene request answer))).log wiring
    (.scene request .started)

/-- Fills in the answer to a scene whose entry stands at a place in the journal, if one is
kept. -/
def fillIn (w : World) (wiring : Wiring) (place : Nat) (kind : SceneKind) (answer : Playback) :
    World :=
  if wiring.journaled then
    { w with journal := w.journal.modify place (·.answered kind answer) }
  else w

/-- Asks for a scene and hands over its token; gives the answer. `own` resumes that token,
`revive` any other. -/
def playScene (wiring : Wiring) (revive : Nat → World → World) (request : SceneRequest)
    (sequel : Option Sequel) (own : World → World) (w : World) : Playback × World :=
  let token := w.tokens.length
  -- the entry of a scene stands before all calls that its sequel makes, and is found again there
  let place := w.journal.length
  let answer := wiring.receiver.answer w request
  let acts := wiring.receiver.acts w (.scene token request)
  let w := (w.ask wiring request answer sequel).carryOut
    (fun t w => if t = token then own w else revive t w) acts
  (answer, w.fillIn wiring place request.kind answer)

/-- Asks for a scene with a sequel. If it is declined, the sequel runs at once, unless it has
run by then. -/
def runScene (wiring : Wiring) (revive : Nat → World → World) (request : SceneRequest)
    (sequel : Sequel) (run : World → World) (w : World) : World :=
  let token := w.tokens.length
  let own := World.resume (fun _ => some run) token
  let (answer, w) := w.playScene wiring revive request (some sequel) own
  let w := match answer with
    | .declined => own w
    | .started => w
  w.note (.returned token)

end World

end Narrative
