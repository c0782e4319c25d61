import Narrative.Json.Decoder

set_option autoImplicit false

/-!
# Authored conditions

A precondition as writers type it: a type string beside every field that some type
of condition reads.
-/

namespace Narrative.Authored

/-- A precondition as authored. -/
structure Condition where
  type : String := ""
  milestone : Option String := none
  questId : Option String := none
  stageId : Option String := none
  taskId : Option String := none
  eventId : Option String := none
  tutorialId : Option String := none
  itemId : Option String := none
  item : Option String := none
  quantity : Option UInt32 := none
deriving DecidableEq, Repr, Inhabited

/-- A field that holds an optional string. -/
def textField (levels : Nat) (name : String) : FieldReader Json (Option String) :=
  FieldReader.field name none (Decoder.optional Decoder.text levels)

/-- Decodes an authored condition; every field may be left out. -/
def Condition.decode : Decoder Condition :=
  Decoder.record fun levels => do
    let type ← FieldReader.field "type" "" (Decoder.text levels)
    let milestone ← textField levels "milestone"
    let questId ← textField levels "questId"
    let stageId ← textField levels "stageId"
    let taskId ← textField levels "taskId"
    let eventId ← textField levels "eventId"
    let tutorialId ← textField levels "tutorialId"
    let itemId ← textField levels "itemId"
    let item ← textField levels "item"
    let quantity ←
      FieldReader.field "quantity" none (Decoder.optional Decoder.quantity levels)
    return { type, milestone, questId, stageId, taskId, eventId, tutorialId, itemId, item,
             quantity }

/-- An authored condition is shown with every field. -/
instance : ToJson Condition :=
  ⟨fun c => .object [
    ("type", toJson c.type), ("milestone", toJson c.milestone), ("questId", toJson c.questId),
    ("stageId", toJson c.stageId), ("taskId", toJson c.taskId), ("eventId", toJson c.eventId),
    ("tutorialId", toJson c.tutorialId), ("itemId", toJson c.itemId), ("item", toJson c.item),
    ("quantity", toJson c.quantity)]⟩

end Narrative.Authored
