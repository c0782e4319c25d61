import Narrative.Authored.Trigger
import Narrative.Authored.Action

set_option autoImplicit false

/-!
# Authored events

A story event as writers type it: a trigger, the conditions that must all hold, and
the actions to run.
-/

namespace Narrative.Authored

/-- An event as authored. -/
structure Event where
  id : String := ""
  trigger : Trigger := {}
  conditions : List Condition := []
  actions : List Action := []
  repeatable : Bool := false
deriving Inhabited

/-- Decodes an authored event; every field may be left out. -/
def Event.decode : Decoder Event :=
  Decoder.record fun levels => do
    let id ← FieldReader.field "id" "" (Decoder.text levels)
    let trigger ← FieldReader.field "trigger" {} (Trigger.decode levels)
    let conditions ← FieldReader.field "conditions" [] (Decoder.list Condition.decode levels)
    let actions ← FieldReader.field "actions" [] (Decoder.list Action.decode levels)
    let repeatable ← FieldReader.field "repeatable" false (Decoder.flag levels)
    return { id, trigger, conditions, actions, repeatable }

/-- An authored event is shown with every field. -/
instance : ToJson Event :=
  ⟨fun e => .object [
    ("id", toJson e.id), ("trigger", toJson e.trigger), ("conditions", toJson e.conditions),
    ("actions", toJson e.actions), ("repeatable", toJson e.repeatable)]⟩

end Narrative.Authored
