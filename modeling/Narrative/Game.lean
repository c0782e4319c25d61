import Narrative.SessionState
import Narrative.Effect

set_option autoImplicit false

/-!
# The game a session plays

A saved game is a session state beside a progress ledger. `Game.apply` carries out a
direct effect on it. Every effect is accepted except taking more of an item than is
held; a refused effect changes nothing (`Game.apply_of_not_accepts`).
-/

namespace Narrative

/-- A line of narration that was shown. -/
structure ShownMessage where
  text : String
  tapToDismiss : Bool
deriving DecidableEq, Repr

/-- Items on the floor of a room, if the room was known. -/
structure GroundItem where
  room : Option String
  item : String
  quantity : UInt32
deriving DecidableEq, Repr

/-- What a session tracks beside its state. -/
structure Progress where
  xp : Int64 := 0
  credits : Int64 := 0
  ap : Int64 := 0
  party : List String := []
  roomFlags : IdMap (IdMap Bool) := ∅
  searchableRooms : IdSet := ∅
  encounters : List (Option String × Option String) := []
  groundItems : List GroundItem := []
  messages : List ShownMessage := []
  audio : List AudioCommand := []
  questUpdates : UInt32 := 0
  failureReasons : IdMap String := ∅
deriving DecidableEq

namespace Progress

/-- The value of a room flag; unset flags are false. -/
def roomFlag (p : Progress) (room key : String) : Bool :=
  (((p.roomFlags.get? room).getD ∅).get? key).getD false

/-- The ledger with a room flag set. -/
def setRoomFlag (p : Progress) (room key : String) (value : Bool) : Progress :=
  { p with
    roomFlags := p.roomFlags.insert room (((p.roomFlags.get? room).getD ∅).insert key value) }

end Progress

/-- A session state with its progress ledger. -/
structure Game where
  state : SessionState := {}
  progress : Progress := {}
deriving DecidableEq

namespace Game

/-- The room that a room-scoped effect means: the one it names, else the current one. -/
def roomFor (g : Game) (room : Option String) : Option String :=
  room <|> g.state.currentRoom

/-- Changes the session state. -/
def updateState (g : Game) (f : SessionState → SessionState) : Game :=
  { g with state := f g.state }

/-- Changes the progress ledger. -/
def updateProgress (g : Game) (f : Progress → Progress) : Game :=
  { g with progress := f g.progress }

/-- Adds items to the inventory. -/
def addItem (g : Game) (item : String) (quantity : UInt32) : Game :=
  g.updateState fun s => { s with inventory := s.inventory.add item quantity }

/-- Applies a reward: its amounts, then its items in order. An empty reward is passed over. -/
def grant (g : Game) (r : Reward) : Game :=
  if r.isEmpty then g
  else
    r.items.foldl (fun g i => g.addItem i.item i.quantity)
      (g.updateProgress fun p =>
        { p with xp := p.xp + r.xp, credits := p.credits + r.credits, ap := p.ap + r.ap })

/-- Whether an effect is carried out: all are, but for taking more than is held. -/
def accepts (g : Game) : Effect → Bool
  | .takeItem item quantity => (g.state.inventory.take? item quantity).isSome
  | _ => true

/-- The game after an effect. -/
def apply (g : Game) : Effect → Game
  | .showMessage text tap =>
      g.updateProgress fun p => { p with messages := p.messages ++ [⟨text, tap⟩] }
  | .grantReward r => g.grant r
  | .audio command => g.updateProgress fun p => { p with audio := p.audio ++ [command] }
  | .setRoomState room key value =>
      let room := (g.roomFor room).getD ""
      g.updateProgress fun p => p.setRoomFlag room key (value.getD !p.roomFlag room key)
  | .spawnEncounter encounter room =>
      g.updateProgress fun p => { p with encounters := p.encounters ++ [(encounter, room)] }
  | .spawnGroundItem room item quantity =>
      let room := g.roomFor room
      g.updateProgress fun p =>
        { p with groundItems := p.groundItems ++ [⟨room, item, quantity⟩] }
  | .unlockRoomSearch room _ =>
      let room := (g.roomFor room).getD ""
      g.updateProgress fun p => { p with searchableRooms := p.searchableRooms.add room }
  | .giveItem item quantity => g.addItem item quantity
  | .takeItem item quantity =>
      match g.state.inventory.take? item quantity with
      | some inventory => g.updateState fun s => { s with inventory }
      | none => g
  | .giveXp amount => g.updateProgress fun p => { p with xp := p.xp + amount }
  | .partyMemberJoined member =>
      g.updateProgress fun p =>
        if p.party.any (Text.sameId · member) then p
        else { p with party := p.party ++ [member] }
  | .startQuest quest =>
      g.updateState fun s => { s with activeQuests := s.activeQuests.add quest }
  | .completeQuest quest =>
      g.updateState fun s =>
        { s with
          activeQuests := s.activeQuests.erase quest
          completedQuests := s.completedQuests.add quest }
  | .failQuest quest reason =>
      let g := g.updateState fun s =>
        { s with
          activeQuests := s.activeQuests.erase quest
          failedQuests := s.failedQuests.add quest }
      if reason.isEmpty then g
      else g.updateProgress fun p =>
        { p with failureReasons := p.failureReasons.insert quest reason }
  | .advanceQuestStage (some quest) (some stage) =>
      g.updateState fun s => { s with questStages := s.questStages.insert quest stage }
  | .updateQuestTask (some quest) (some task) =>
      g.updateState fun s =>
        let tasks := (s.completedTasks.get? quest).getD ∅
        { s with completedTasks := s.completedTasks.insert quest (tasks.add task) }
  | .questUpdated => g.updateProgress fun p => { p with questUpdates := p.questUpdates + 1 }
  | .milestoneSet milestone =>
      g.updateState fun s => { s with milestones := s.milestones.add milestone }
  | .advanceQuestStage .. | .updateQuestTask .. | .eventCompleted _ => g

/-- Records that an event has fired. -/
def markEvent (g : Game) (event : String) : Game :=
  g.updateState fun s => { s with completedEvents := s.completedEvents.add event }

/-- Counts a tutorial as seen. -/
def seeTutorial (g : Game) (tutorial : Option String) : Game :=
  match tutorial with
  | some t => g.updateState fun s => { s with tutorials := s.tutorials.add t }
  | none => g

/-- Moves the player to a room. -/
def enterRoom (g : Game) (room : String) : Game :=
  g.updateState fun s => { s with currentRoom := some room }

/-- A refused effect changes nothing. -/
theorem apply_of_not_accepts {g : Game} {e : Effect} (h : g.accepts e = false) :
    g.apply e = g := by
  cases e <;> simp_all [accepts, apply]

end Game

end Narrative
