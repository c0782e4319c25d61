import Narrative.Authored.Condition
import Narrative.Reward

set_option autoImplicit false

/-!
# Authored actions

An action as writers type it: a type string beside the union of the fields that some
type of action reads, and three nested action lists.
-/

namespace Narrative.Authored

/-- The fields of an authored action apart from its nested lists. -/
structure ActionFields where
  type : String := ""
  milestone : Option String := none
  questId : Option String := none
  startQuest : Option String := none
  completeQuest : Option String := none
  failQuest : Option String := none
  reason : Option String := none
  stageId : Option String := none
  taskId : Option String := none
  eventId : Option String := none
  tutorialId : Option String := none
  itemId : Option String := none
  item : Option String := none
  quantity : Option UInt32 := none
  roomId : Option String := none
  room : Option String := none
  stateKey : Option String := none
  value : Option Bool := none
  encounterId : Option String := none
  memberId : Option String := none
  note : Option String := none
  sceneId : Option String := none
  context : Option String := none
  message : Option String := none
  text : Option String := none
  tapToDismiss : Option Bool := none
  layer : Option String := none
  cueId : Option String := none
  gain : Option Gain := none
  fadeMs : Option UInt32 := none
  loop : Option Bool := none
  stop : Option Bool := none
  xp : Option Int64 := none
  credits : Option Int64 := none
  ap : Option Int64 := none
  items : Option (List RewardItem) := none
  reward : Option Reward := none
  action : Option String := none
deriving DecidableEq, Repr, Inhabited

/-- An action as authored: its fields, the branches of a conditional, and what follows a
scene. -/
inductive Action where
  | mk (fields : ActionFields) (thenDo elseDo onComplete : List Action)
deriving Inhabited

namespace ActionFields

/-- The condition record that a conditional action of a type tests. -/
def asCondition (a : ActionFields) (type : String) : Condition where
  type := type
  milestone := a.milestone
  questId := a.questId
  stageId := a.stageId
  taskId := a.taskId
  eventId := a.eventId
  tutorialId := a.tutorialId
  itemId := a.itemId
  item := a.item
  quantity := a.quantity

/-- The reward-bearing fields. -/
def rewardSpec (a : ActionFields) : RewardSpec where
  base := a.reward
  xp := a.xp
  credits := a.credits
  ap := a.ap
  items := a.items

/-- Reads the fields of an action in declared order; every field may be left out. -/
def read (levels : Nat) : FieldReader Json ActionFields := do
  let optional {α : Type} (name : String) (read : Decoder α) :=
    FieldReader.field name none (Decoder.optional read levels)
  let text := textField levels
  let type ← FieldReader.field "type" "" (Decoder.text levels)
  let milestone ← text "milestone"
  let questId ← text "questId"
  let startQuest ← text "startQuest"
  let completeQuest ← text "completeQuest"
  let failQuest ← text "failQuest"
  let reason ← text "reason"
  let stageId ← text "stageId"
  let taskId ← text "taskId"
  let eventId ← text "eventId"
  let tutorialId ← text "tutorialId"
  let itemId ← text "itemId"
  let item ← text "item"
  let quantity ← optional "quantity" Decoder.quantity
  let roomId ← text "roomId"
  let room ← text "room"
  let stateKey ← text "stateKey"
  let value ← optional "value" Decoder.flag
  let encounterId ← text "encounterId"
  let memberId ← text "memberId"
  let note ← text "note"
  let sceneId ← text "sceneId"
  let context ← text "context"
  let message ← text "message"
  let narration ← text "text"
  let tapToDismiss ← optional "tapToDismiss" Decoder.flag
  let layer ← text "layer"
  let cueId ← text "cueId"
  let gain ← optional "gain" Decoder.gain
  let fadeMs ← optional "fadeMs" Decoder.quantity
  let loop ← optional "loop" Decoder.flag
  let stop ← optional "stop" Decoder.flag
  let xp ← optional "xp" Decoder.amount
  let credits ← optional "credits" Decoder.amount
  let ap ← optional "ap" Decoder.amount
  let items ← optional "items" (Decoder.list RewardItem.decode)
  let reward ← optional "reward" Reward.decode
  let action ← text "action"
  return {
    type, milestone, questId, startQuest, completeQuest, failQuest, reason, stageId, taskId,
    eventId, tutorialId, itemId, item, quantity, roomId, room, stateKey, value, encounterId,
    memberId, note, sceneId, context, message, text := narration, tapToDismiss, layer, cueId,
    gain, fadeMs, loop, stop, xp, credits, ap, items, reward, action }

/-- The members that show the fields. A gain is shown by its bits, and not at all if it is
infinite. -/
def members (a : ActionFields) : List (String × Json) := [
  ("type", toJson a.type), ("milestone", toJson a.milestone), ("questId", toJson a.questId),
  ("startQuest", toJson a.startQuest), ("completeQuest", toJson a.completeQuest),
  ("failQuest", toJson a.failQuest), ("reason", toJson a.reason), ("stageId", toJson a.stageId),
  ("taskId", toJson a.taskId), ("eventId", toJson a.eventId),
  ("tutorialId", toJson a.tutorialId), ("itemId", toJson a.itemId), ("item", toJson a.item),
  ("quantity", toJson a.quantity), ("roomId", toJson a.roomId), ("room", toJson a.room),
  ("stateKey", toJson a.stateKey), ("value", toJson a.value),
  ("encounterId", toJson a.encounterId), ("memberId", toJson a.memberId),
  ("note", toJson a.note), ("sceneId", toJson a.sceneId), ("context", toJson a.context),
  ("message", toJson a.message), ("text", toJson a.text),
  ("tapToDismiss", toJson a.tapToDismiss), ("layer", toJson a.layer), ("cueId", toJson a.cueId),
  ("gain", toJson (a.gain.filter Gain.isFinite)), ("fadeMs", toJson a.fadeMs),
  ("loop", toJson a.loop), ("stop", toJson a.stop), ("xp", toJson a.xp),
  ("credits", toJson a.credits), ("ap", toJson a.ap), ("items", toJson a.items),
  ("reward", toJson a.reward), ("action", toJson a.action)]

end ActionFields

namespace Action

/-- The flat fields of an action. -/
def fields : Action → ActionFields
  | .mk f _ _ _ => f

/-- Decodes an authored action. An action takes one level of nesting and each of its lists
another, so what remains for the actions inside is two levels less. -/
def decode : Decoder Action
  | 0, _ => none
  | 1, j => Decoder.record (body fun _ _ => none) 1 j
  | levels + 2, j => Decoder.record (body fun _ => decode levels) (levels + 2) j
where
  /-- The fields of an action, given the decoder of the actions inside. -/
  body (inner : Decoder Action) (levels : Nat) : FieldReader Json Action := do
    let fields ← ActionFields.read levels
    let thenDo ← FieldReader.field "do" [] (Decoder.list inner levels)
    let elseDo ← FieldReader.field "elseDo" [] (Decoder.list inner levels)
    let onComplete ← FieldReader.field "onComplete" [] (Decoder.list inner levels)
    return .mk fields thenDo elseDo onComplete

mutual

/-- An authored action shown with every field. -/
def toJson : Action → Json
  | .mk fields thenDo elseDo onComplete => .object (fields.members ++ [
      ("do", .array (listToJson thenDo)), ("elseDo", .array (listToJson elseDo)),
      ("onComplete", .array (listToJson onComplete))])

/-- The authored actions of a list, each shown with every field. -/
def listToJson : List Action → List Json
  | [] => []
  | action :: rest => toJson action :: listToJson rest

end

instance : ToJson Action := ⟨Action.toJson⟩

end Action

end Narrative.Authored
