import Narrative.Authored.Action
import Narrative.Condition
import Narrative.Effect

set_option autoImplicit false

/-!
# Actions

The closed vocabulary of actions, compiled from authored records. A `Deed` asks for
effects and nothing else; the other actions branch, wait for a scene, or raise a
player action. A type outside the vocabulary compiles to `unknown`, which does
nothing.
-/

namespace Narrative

/-- An action that only asks for effects. A deed whose id is missing asks for none. -/
inductive Deed where
  | setMilestone (milestone : Option String)
  | startQuest (quest : Option String)
  | completeQuest (quest : Option String)
  | failQuest (quest : Option String) (reason : String)
  | advanceQuestStage (quest stage : Option String)
  | updateQuestTask (quest task : Option String)
  | giveItem (item : Option String) (quantity : UInt32)
  | takeItem (item : Option String) (quantity : UInt32)
  | spawnGroundItem (room item : Option String) (quantity : UInt32)
  | giveXp (xp : Option Int64)
  | giveReward (spec : RewardSpec)
  | showMessage (text : Option String) (tapToDismiss : Bool)
  | setRoomState (room key : Option String) (value : Option Bool)
  | spawnEncounter (encounter room : Option String)
  | partyMemberJoined (member : Option String)
  | unlockRoomSearch (room note : Option String)
  | audio (command : AudioCommand)
deriving DecidableEq, Repr

/-- A compiled action. -/
inductive Action where
  | deed (deed : Deed)
  | branch (test : Condition) (thenDo elseDo : List Action)
  | playCinematic (scene : Option String) (onComplete : List Action)
  | systemTutorial (scene context : Option String) (onComplete : List Action)
  | playerAction (action item : Option String)
  | unknown (type : String)
deriving Inhabited

namespace Deed

/-- The effects that a deed asks for, in order. -/
def effects : Deed → List Effect
  | .setMilestone (some m) => [.milestoneSet m, .questUpdated]
  | .startQuest (some q) => [.startQuest q, .questUpdated]
  | .completeQuest (some q) => [.completeQuest q, .questUpdated]
  | .failQuest (some q) reason => [.failQuest q reason, .questUpdated]
  | .advanceQuestStage q s => [.advanceQuestStage q s, .questUpdated]
  | .updateQuestTask q t => [.updateQuestTask q t, .questUpdated]
  | .giveItem (some i) n => [.giveItem i n]
  | .takeItem (some i) n => [.takeItem i n]
  | .spawnGroundItem room (some i) n => [.spawnGroundItem room i n]
  | .giveXp (some n) => if n == 0 then [] else [.giveXp n]
  | .giveReward spec => [.grantReward spec.merge]
  | .showMessage (some text) tap =>
      match Text.present? text with
      | some t => [.showMessage t tap]
      | none => []
  | .setRoomState room (some key) value => [.setRoomState room key value]
  | .spawnEncounter e room => [.spawnEncounter e room]
  | .partyMemberJoined (some m) => [.partyMemberJoined m]
  | .unlockRoomSearch room note => [.unlockRoomSearch room note]
  | .audio command => [.audio command]
  | _ => []

/-- The name of a deed's type. -/
def label : Deed → String
  | .setMilestone _ => "set_milestone"
  | .startQuest _ => "start_quest"
  | .completeQuest _ => "complete_quest"
  | .failQuest .. => "fail_quest"
  | .advanceQuestStage .. => "advance_quest_stage"
  | .updateQuestTask .. => "update_quest_task"
  | .giveItem .. => "give_item"
  | .takeItem .. => "take_item"
  | .spawnGroundItem .. => "spawn_ground_item"
  | .giveXp _ => "give_xp"
  | .giveReward _ => "give_reward"
  | .showMessage .. => "show_message"
  | .setRoomState .. => "set_room_state"
  | .spawnEncounter .. => "spawn_encounter"
  | .partyMemberJoined _ => "party_member_joined"
  | .unlockRoomSearch .. => "unlock_room_search"
  | .audio _ => "audio"

open Text (firstPresent)

/-- The deed of a type key, if the key names one. Fields are trimmed and blank ones dropped;
a shorthand quest wins over the quest id, a message over its alias. -/
def known? (key : String) (a : Authored.ActionFields) : Option Deed :=
  let item := firstPresent a.itemId a.item
  let room := firstPresent a.roomId a.room
  let quantity := Quantity.normalize a.quantity
  let quest (shorthand : Option String) := firstPresent shorthand a.questId
  match key with
  | "set_milestone" => some (.setMilestone (firstPresent a.milestone none))
  | "start_quest" => some (.startQuest (quest a.startQuest))
  | "complete_quest" => some (.completeQuest (quest a.completeQuest))
  | "fail_quest" => some (.failQuest (quest a.failQuest) (a.reason.getD ""))
  | "advance_quest_stage" | "set_quest_stage" =>
      some (.advanceQuestStage (quest none) (firstPresent a.stageId none))
  | "complete_quest_task" | "update_quest_task" =>
      some (.updateQuestTask (quest none) (firstPresent a.taskId none))
  | "give_item" => some (.giveItem item quantity)
  | "take_item" => some (.takeItem item quantity)
  | "spawn_ground_item" | "drop_item" => some (.spawnGroundItem room item quantity)
  | "give_xp" => some (.giveXp a.xp)
  | "give_reward" | "reward" | "grant_reward" => some (.giveReward a.rewardSpec)
  | "show_message" | "narrate" | "narration" =>
      some (.showMessage (firstPresent a.message a.text) (a.tapToDismiss.getD false))
  | "set_room_state" =>
      some (.setRoomState room (firstPresent a.stateKey none) (some (a.value.getD true)))
  | "toggle_room_state" => some (.setRoomState room (firstPresent a.stateKey none) none)
  | "spawn_encounter" | "start_encounter" =>
      some (.spawnEncounter (firstPresent a.encounterId none) room)
  | "party_member_joined" | "add_party_member" =>
      some (.partyMemberJoined (firstPresent a.memberId none))
  | "unlock_room_search" => some (.unlockRoomSearch room (firstPresent a.note none))
  | "audio" | "play_audio" | "stop_audio" =>
      some (.audio {
        layer := firstPresent a.layer none
        cue := firstPresent a.cueId none
        gain := a.gain
        fadeMs := a.fadeMs
        looping := a.loop
        stop := key == "stop_audio" || a.stop.getD false })
  | _ => none

end Deed

namespace Action

/-- The part of a type key after `if_`, if it starts so. -/
def conditionKey? (key : String) : Option String :=
  match key.toList with
  | 'i' :: 'f' :: '_' :: rest => some (String.ofList rest)
  | _ => none

/-- The condition that a conditional action of a type key tests. -/
def test? (key : String) (a : Authored.ActionFields) : Option Condition :=
  (conditionKey? key).bind fun k => Condition.known? k (a.asCondition k)

mutual

/-- Compiles an authored action. -/
def ofAuthored : Authored.Action → Action
  | .mk a thenDo elseDo onComplete =>
      let key := Text.typeKey a.type
      let scene := Text.firstPresent a.sceneId none
      match Deed.known? key a with
      | some d => .deed d
      | none =>
          match key with
          | "play_cinematic" | "trigger_cutscene" => .playCinematic scene (ofAuthoredList onComplete)
          | "system_tutorial" =>
              .systemTutorial scene (Text.firstPresent a.context none) (ofAuthoredList onComplete)
          | "player_action" =>
              .playerAction (Text.firstPresent a.action none) (Text.firstPresent a.itemId a.item)
          | _ =>
              match test? key a with
              | some test => .branch test (ofAuthoredList thenDo) (ofAuthoredList elseDo)
              | none => .unknown key

/-- Compiles a list of authored actions. -/
def ofAuthoredList : List Authored.Action → List Action
  | [] => []
  | a :: rest => ofAuthored a :: ofAuthoredList rest

end

mutual

/-- The unknown types of an action and of the actions inside it, in written order. -/
def unknownTypes : Action → List String
  | .unknown type => [type]
  | .branch _ thenDo elseDo => unknownTypesOf thenDo ++ unknownTypesOf elseDo
  | .playCinematic _ onComplete => unknownTypesOf onComplete
  | .systemTutorial _ _ onComplete => unknownTypesOf onComplete
  | _ => []

/-- The unknown types of a list of actions. -/
def unknownTypesOf : List Action → List String
  | [] => []
  | a :: rest => unknownTypes a ++ unknownTypesOf rest

end

end Action

/-! ## Showing actions -/

/-- A deed is shown as a list that starts with its type. -/
instance : ToJson Deed :=
  ⟨fun d => .array (toJson d.label :: match d with
    | .setMilestone m => [toJson m]
    | .startQuest q => [toJson q]
    | .completeQuest q => [toJson q]
    | .failQuest q reason => [toJson q, toJson reason]
    | .advanceQuestStage q s => [toJson q, toJson s]
    | .updateQuestTask q t => [toJson q, toJson t]
    | .giveItem i n => [toJson i, toJson n]
    | .takeItem i n => [toJson i, toJson n]
    | .spawnGroundItem room i n => [toJson room, toJson i, toJson n]
    | .giveXp xp => [toJson xp]
    | .giveReward s => [toJson s.base, toJson s.xp, toJson s.credits, toJson s.ap, toJson s.items,
        toJson s.merge]
    | .showMessage text tap => [toJson text, toJson tap]
    | .setRoomState room key value => [toJson room, toJson key, toJson value]
    | .spawnEncounter e room => [toJson e, toJson room]
    | .partyMemberJoined m => [toJson m]
    | .unlockRoomSearch room note => [toJson room, toJson note]
    | .audio command => [toJson command])⟩

namespace Action

mutual

/-- An action shown as a list that starts with its type. -/
def toJson : Action → Json
  | .deed d => ToJson.toJson d
  | .branch test thenDo elseDo => .array [.string "branch", ToJson.toJson test,
      .array (listToJson thenDo), .array (listToJson elseDo)]
  | .playCinematic scene onComplete => .array [.string "play_cinematic", ToJson.toJson scene,
      .array (listToJson onComplete)]
  | .systemTutorial scene context onComplete => .array [.string "system_tutorial",
      ToJson.toJson scene, ToJson.toJson context, .array (listToJson onComplete)]
  | .playerAction action item => .array [.string "player_action", ToJson.toJson action,
      ToJson.toJson item]
  | .unknown type => .array [.string "unknown", .string type]

/-- The actions of a list, each shown as a list that starts with its type. -/
def listToJson : List Action → List Json
  | [] => []
  | a :: rest => toJson a :: listToJson rest

end

instance : ToJson Action := ⟨Action.toJson⟩

end Action

end Narrative
