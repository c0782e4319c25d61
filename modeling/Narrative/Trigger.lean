import Narrative.Authored.Trigger
import Narrative.SessionState
import Narrative.Payload
import Narrative.Config

set_option autoImplicit false

/-!
# Triggers

What an event listens for, compiled from the authored record, and when it matches
the payload of an occurrence. Names of people, action tags and items are compared up
to ASCII case; rooms, quests and enemies exactly. A payload of the wrong kind is a
mismatch.
-/

namespace Narrative

/-- The family of a trigger type, which decides how payloads are matched. -/
inductive TriggerKind where
  | npc
  | enterRoom
  | playerAction
  | questStageComplete
  | encounter (outcome : EncounterOutcome)
  | itemAcquired
  | other (type : String)
deriving DecidableEq, Repr

/-- The family of a type key. -/
def TriggerKind.ofKey : String → TriggerKind
  | "talk_to" | "npc_interaction" | "dialogue_closed" | "dialogue_dismissed" => .npc
  | "enter_room" => .enterRoom
  | "player_action" => .playerAction
  | "quest_stage_complete" => .questStageComplete
  | "encounter_victory" => .encounter .victory
  | "encounter_defeat" => .encounter .defeat
  | "encounter_retreat" => .encounter .retreat
  | "item_acquired" => .itemAcquired
  | key => .other key

/-- Whether a trigger type is outside the vocabulary. -/
def TriggerKind.isUnknown : TriggerKind → Bool
  | .other _ => true
  | _ => false

/-- A compiled trigger. -/
structure Trigger where
  typeKey : String
  kind : TriggerKind
  npc : Option String
  room : Option String
  action : Option String
  item : Option String
  quest : Option String
  enemies : IdSet
deriving DecidableEq

namespace Trigger

open Text (firstPresent sameId)

/-- Compiles an authored trigger. The enemies are kept as written. -/
def ofAuthored (t : Authored.Trigger) : Trigger where
  typeKey := Text.typeKey t.type
  kind := TriggerKind.ofKey (Text.typeKey t.type)
  npc := firstPresent t.npc none
  room := firstPresent t.roomId t.room
  action := firstPresent t.action none
  item := firstPresent t.itemId t.item
  quest := firstPresent t.questId none
  enemies := IdSet.ofIds t.enemies

/-- Whether a wanted value, if any, passes a test. -/
def passes (want : Option String) (test : String → Bool) : Bool :=
  match want with
  | some w => test w
  | none => true

/-- Whether any enemy of a list is listed by the trigger; a trigger without enemies wants
none in particular. -/
def wantsEnemies (t : Trigger) (enemies : List String) : Bool :=
  t.enemies.isEmpty || enemies.any t.enemies.contains

/-- Whether the player's whereabouts are those that a trigger waits for: the room entered or,
if none was named, the current room. -/
def wantsRoom (t : Trigger) (s : SessionState) (entered : Option String) : Bool :=
  passes t.room fun want => (entered <|> s.currentRoom) == some want

/-- Whether a trigger matches a payload in a state. -/
def isMatch (policy : UnknownPolicy) (t : Trigger) (p : Payload) (s : SessionState) : Bool :=
  match t.kind, p with
  | .npc, .talkedTo npc =>
      match t.npc with
      | some want => sameId want npc
      | none => false
  | .enterRoom, .enteredRoom room => t.wantsRoom s room
  | .enterRoom, .empty => t.wantsRoom s none
  | .playerAction, .playerAction action item =>
      passes t.action (sameId · action) &&
        passes t.item fun want =>
          match item with
          | some held => sameId want held
          | none => false
  | .questStageComplete, .questStageReached quest _ => t.quest == some quest
  | .encounter want, .encounter enemies outcome => outcome == want && t.wantsEnemies enemies
  | .encounter .victory, .enemyVictory enemies => t.wantsEnemies enemies
  | .itemAcquired, .itemAcquired item _ => passes t.item (sameId · item)
  | .other _, _ => policy.verdict
  | _, _ => false

end Trigger

/-- A trigger family is shown as a list that starts with its name. -/
instance : ToJson TriggerKind :=
  ⟨fun k => .array (match k with
    | .npc => [toJson "npc"]
    | .enterRoom => [toJson "enter_room"]
    | .playerAction => [toJson "player_action"]
    | .questStageComplete => [toJson "quest_stage_complete"]
    | .encounter o => [toJson "encounter", toJson o.name]
    | .itemAcquired => [toJson "item_acquired"]
    | .other key => [toJson "other", toJson key])⟩

/-- A trigger is shown with the members it has. -/
instance : ToJson Trigger :=
  ⟨fun t =>
    let present (name : String) (field : Option String) : List (String × Json) :=
      match field with
      | some v => [(name, toJson v)]
      | none => []
    .object ([("type_key", toJson t.typeKey), ("kind", toJson t.kind)] ++
      present "npc" t.npc ++ present "room_id" t.room ++ present "action" t.action ++
      present "item_id" t.item ++ present "quest_id" t.quest ++
      if t.enemies.isEmpty then [] else [("enemies", toJson t.enemies)])⟩

end Narrative
