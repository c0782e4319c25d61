import Narrative.Engine

set_option autoImplicit false

/-!
# Playing

A play is an engine at work on a session: the world, how it is wired, and the engine
if one is alive. The host drives it by moves (`Play.move`): it reports occurrences,
performs actions, finishes scenes, resumes kept callbacks, and may drop or restart
the engine at any time. What follows a scene runs only on the engine that asked for
it; if that engine is gone, the token lapses.
-/

namespace Narrative

/-- Something that happened in the game and is reported to the engine. -/
inductive Occurrence where
  | talkedTo (npc : String)
  | dialogueClosed (npc : String)
  | enteredRoom (room : Option String)
  | playerAction (action : String) (item : Option String)
  | questStageReached (quest stage : String)
  | itemAcquired (item : String) (quantity : UInt32)
  | encounterEnded (enemies : List String) (outcome : EncounterOutcome)
deriving DecidableEq, Repr

namespace Occurrence

/-- The trigger type that an occurrence raises. -/
def triggerType : Occurrence → String
  | .talkedTo _ => "talk_to"
  | .dialogueClosed _ => "dialogue_closed"
  | .enteredRoom _ => "enter_room"
  | .playerAction .. => "player_action"
  | .questStageReached .. => "quest_stage_complete"
  | .itemAcquired .. => "item_acquired"
  | .encounterEnded _ outcome => outcome.triggerType

/-- The payload that comes with an occurrence. -/
def payload : Occurrence → Payload
  | .talkedTo npc => .talkedTo npc
  | .dialogueClosed npc => .talkedTo npc
  | .enteredRoom room => .enteredRoom room
  | .playerAction action item => .playerAction action item
  | .questStageReached quest stage => .questStageReached quest stage
  | .itemAcquired item quantity => .itemAcquired item quantity
  | .encounterEnded enemies outcome => .encounter enemies outcome

/-- The world as an occurrence finds it: a room that is named becomes the current one. -/
def prepare : Occurrence → World → World
  | .enteredRoom (some room), w => w.changeGame (·.enterRoom room)
  | _, w => w

end Occurrence

/-- Answers an occurrence. -/
def Engine.report (e : Engine) (wiring : Wiring) (o : Occurrence) (w : World) : Report × World :=
  e.handle wiring o.triggerType o.payload (o.prepare w)

/-- How an embedding program shows scenes: it leaves them to the session, or handles their
tokens in one of five ways. -/
inductive SceneMode where
  | host
  | decline
  | eager
  | stutter
  | manual
  | hoard
deriving DecidableEq, Repr

namespace SceneMode

/-- The modes by name. -/
def choices : List (String × SceneMode) :=
  [("host", .host), ("decline", .decline), ("eager", .eager), ("stutter", .stutter),
   ("manual", .manual), ("hoard", .hoard)]

/-- The mode with a name. -/
def ofName? (s : String) : Option SceneMode := (choices.find? (·.1 == s)).map (·.2)

/-- What becomes of a token that is not left to the session. -/
def handling? : SceneMode → Option Handling
  | .host => none
  | .decline => some ⟨0, false, .declined⟩
  | .eager => some ⟨1, false, .declined⟩
  | .stutter => some ⟨2, false, .started⟩
  | .manual => some ⟨0, true, .started⟩
  | .hoard => some ⟨0, true, .declined⟩

/-- The screen of a mode over a session that finishes its scenes at once or parks them. -/
def screen (mode : SceneMode) (finishes : Bool) : Screen :=
  match mode.handling? with
  | some h => .entrust fun _ => h
  | none => if finishes then .finishAtOnce else .park

end SceneMode

/-- An engine at work on a session. -/
structure Play where
  engine : Option Engine
  wiring : Wiring
  world : World
  engines : Nat

/-- A move of the host. -/
inductive Move where
  | trigger (type : String) (payload : Payload)
  | occur (occurrence : Occurrence)
  | perform (actions : List Action)
  | execute (actions : List Action) (state : SessionState)
  | finishScene
  | resumeKept (index : Nat)
  | rewire (wiring : Wiring)
  | dropEngine
  | restart (catalog : Catalog) (config : EngineConfig)
  | setState (state : SessionState)
  | setRoom (room : String)
  | markEvent (event : String)
  | effect (effect : Effect)
  | scene (request : SceneRequest)

/-- The answer to a move. -/
inductive Answer where
  | report (report : Report)
  | took (took : Bool)
  | finished (scene : Option (SceneKind × String))
  | found (found : Bool)
  | accepted (accepted : Bool)
  | playback (answer : Playback)
  | done
  | noEngine

namespace Play

/-- How a sequel is run between moves. -/
def follow (p : Play) (sequel : Sequel) : Option (World → World) :=
  p.engine.bind fun e => e.follow p.wiring (e.outlets p.wiring) sequel

/-- Resumes a token between moves: its sequel runs if its engine is alive, and else the token
is used up without effect. -/
def resume (p : Play) (token : Nat) (w : World) : World :=
  w.resume p.follow token

/-- Takes the oldest parked scene out of the queue and ends it. -/
def finishScene (p : Play) : Option (SceneKind × String) × World :=
  match p.world.queue with
  | [] => (none, p.world)
  | token :: rest =>
      let w := { p.world with queue := rest }
      match w.tokens[token]? with
      | some t =>
          (some (t.request.kind, t.request.label),
            p.resume token (w.changeGame (·.seeTutorial t.request.tutorial?)))
      | none => (none, w)

/-- Asks the receiver for a scene that nothing follows. -/
def playScene (p : Play) (request : SceneRequest) : Playback × World :=
  p.world.playScene p.wiring p.resume request none (p.resume p.world.tokens.length)

/-- Lets the engine act, if there is one. -/
def withEngine (p : Play) (act : Engine → World → Answer × World) : Answer × Play :=
  match p.engine with
  | some e =>
      let (answer, world) := act e p.world
      (answer, { p with world })
  | none => (.noEngine, p)

/-- Drops the engine, if there is one. -/
def dropEngine (p : Play) : Play :=
  match p.engine with
  | some e => { p with engine := none, world := p.world.note (.engineLost e.serial) }
  | none => p

/-- Starts a new engine over the same session; one that was running is dropped. -/
def restart (p : Play) (catalog : Catalog) (config : EngineConfig) : Play :=
  let p := p.dropEngine
  { p with
    engine := some { catalog, config, serial := p.engines }
    engines := p.engines + 1
    world := { p.world with counters := {}, depth := 0, inFlight := [] } }

/-- Makes a move. -/
def move (p : Play) : Move → Answer × Play
  | .trigger type payload => p.withEngine fun e w =>
      let (r, w) := e.handle p.wiring type payload w
      (.report r, w)
  | .occur o => p.withEngine fun e w =>
      let (r, w) := e.report p.wiring o w
      (.report r, w)
  | .perform actions => p.withEngine fun e w =>
      let (took, w) := e.perform p.wiring actions w
      (.took took, w)
  | .execute actions s => p.withEngine fun e w =>
      let (took, w) := e.execute p.wiring actions s w
      (.took took, w)
  | .finishScene =>
      let (scene, world) := p.finishScene
      (.finished scene, { p with world })
  | .resumeKept index =>
      match p.world.kept[index]? with
      | some token => (.found true, { p with world := p.resume token p.world })
      | none => (.found false, p)
  | .rewire wiring => (.done, { p with wiring })
  | .dropEngine =>
      match p.engine with
      | some _ => (.done, p.dropEngine)
      | none => (.noEngine, p)
  | .restart catalog config => (.done, p.restart catalog config)
  | .setState state => (.done, { p with world := p.world.changeGame ({ · with state }) })
  | .setRoom room => (.done, { p with world := p.world.changeGame (·.enterRoom room) })
  | .markEvent event => (.done, { p with world := p.world.changeGame (·.markEvent event) })
  | .effect e =>
      let (accepted, world) := p.world.perform p.wiring p.resume e
      (.accepted accepted, { p with world })
  | .scene request =>
      let (answer, world) := p.playScene request
      (.playback answer, { p with world })

/-- Makes moves one after the other. -/
def run (p : Play) (moves : List Move) : Play :=
  moves.foldl (fun p m => (p.move m).2) p

/-- Takes the journal out of the world. -/
def drain (p : Play) : List Entry × Play :=
  (p.world.journal, { p with world := { p.world with journal := [] } })

/-- A play at its start. -/
def start (catalog : Catalog) (config : EngineConfig) (wiring : Wiring) (state : SessionState) :
    Play :=
  restart { engine := none, wiring, world := { game := { state } }, engines := 0 } catalog config

end Play

end Narrative
