import Narrative.Authored.Condition

set_option autoImplicit false

/-!
# Authored triggers

What an event listens for, as writers type it.
-/

namespace Narrative.Authored

/-- A trigger as authored. -/
structure Trigger where
  type : String := ""
  npc : Option String := none
  roomId : Option String := none
  room : Option String := none
  action : Option String := none
  itemId : Option String := none
  item : Option String := none
  questId : Option String := none
  enemies : List String := []
deriving DecidableEq, Repr, Inhabited

/-- Decodes an authored trigger; every field may be left out. -/
def Trigger.decode : Decoder Trigger :=
  Decoder.record fun levels => do
    let type ← FieldReader.field "type" "" (Decoder.text levels)
    let npc ← textField levels "npc"
    let roomId ← textField levels "roomId"
    let room ← textField levels "room"
    let action ← textField levels "action"
    let itemId ← textField levels "itemId"
    let item ← textField levels "item"
    let questId ← textField levels "questId"
    let enemies ← FieldReader.field "enemies" [] (Decoder.list Decoder.text levels)
    return { type, npc, roomId, room, action, itemId, item, questId, enemies }

/-- An authored trigger is shown with every field. -/
instance : ToJson Trigger :=
  ⟨fun t => .object [
    ("type", toJson t.type), ("npc", toJson t.npc), ("roomId", toJson t.roomId),
    ("room", toJson t.room), ("action", toJson t.action), ("itemId", toJson t.itemId),
    ("item", toJson t.item), ("questId", toJson t.questId), ("enemies", toJson t.enemies)]⟩

end Narrative.Authored
