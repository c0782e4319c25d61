import Narrative.Reward

set_option autoImplicit false

/-!
# Effects and scenes

Everything the engine can ask of the game. A direct effect is carried out at once; a
scene runs for as long as the player watches it, and the game answers whether it
started.
-/

namespace Narrative

/-- A change that is carried out at once. -/
inductive Effect where
  | showMessage (text : String) (tapToDismiss : Bool)
  | grantReward (reward : Reward)
  | audio (command : AudioCommand)
  | setRoomState (room : Option String) (key : String) (value : Option Bool)
  | spawnEncounter (encounter room : Option String)
  | spawnGroundItem (room : Option String) (item : String) (quantity : UInt32)
  | unlockRoomSearch (room note : Option String)
  | giveItem (item : String) (quantity : UInt32)
  | takeItem (item : String) (quantity : UInt32)
  | giveXp (amount : Int64)
  | partyMemberJoined (member : String)
  | startQuest (quest : String)
  | completeQuest (quest : String)
  | failQuest (quest reason : String)
  | advanceQuestStage (quest stage : Option String)
  | updateQuestTask (quest task : Option String)
  | questUpdated
  | milestoneSet (milestone : String)
  | eventCompleted (event : String)
deriving DecidableEq, Repr

/-- What kind of scene the player watches. -/
inductive SceneKind where
  | cinematic
  | tutorial
deriving DecidableEq, Repr

/-- The name of a scene kind. -/
def SceneKind.name : SceneKind → String
  | .cinematic => "cinematic"
  | .tutorial => "tutorial"

/-- A scene that the engine asks for. -/
inductive SceneRequest where
  | cinematic (scene : String)
  | tutorial (scene context : Option String)
deriving DecidableEq, Repr

namespace SceneRequest

/-- The kind of a requested scene. -/
def kind : SceneRequest → SceneKind
  | .cinematic _ => .cinematic
  | .tutorial .. => .tutorial

/-- The tutorial that counts as seen once the scene is over. -/
def tutorial? : SceneRequest → Option String
  | .cinematic _ => none
  | .tutorial scene context => scene <|> context

/-- The label under which a scene is known. -/
def label : SceneRequest → String
  | .cinematic scene => scene
  | .tutorial scene context => (scene <|> context).getD "system_tutorial"

end SceneRequest

/-- The answer to a requested scene. -/
inductive Playback where
  | started
  | declined
deriving DecidableEq, Repr

/-- The name of an answer. -/
def Playback.name : Playback → String
  | .started => "started"
  | .declined => "declined"

end Narrative
