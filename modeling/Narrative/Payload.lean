import Narrative.Json.Decoder

set_option autoImplicit false

/-!
# Occurrence payloads

The data that comes with something that happened in the game. In a document a
payload is tagged by its kind; the tag may stand anywhere among the members, so the
whole document has to be sound before the kind is known.
-/

namespace Narrative

/-- How an encounter ended. -/
inductive EncounterOutcome where
  | victory
  | defeat
  | retreat
deriving DecidableEq, Repr

namespace EncounterOutcome

/-- The name of an outcome. -/
def name : EncounterOutcome → String
  | .victory => "victory"
  | .defeat => "defeat"
  | .retreat => "retreat"

/-- The trigger type raised for an outcome. -/
def triggerType : EncounterOutcome → String
  | .victory => "encounter_victory"
  | .defeat => "encounter_defeat"
  | .retreat => "encounter_retreat"

/-- The outcomes by name. -/
def choices : List (String × EncounterOutcome) :=
  [("victory", .victory), ("defeat", .defeat), ("retreat", .retreat)]

/-- The outcome with a name. -/
def ofName? (s : String) : Option EncounterOutcome :=
  (choices.find? (·.1 == s)).map (·.2)

end EncounterOutcome

/-- The data of one occurrence. -/
inductive Payload where
  | empty
  | talkedTo (npc : String)
  | playerAction (action : String) (item : Option String)
  | enteredRoom (room : Option String)
  | questStageReached (quest stage : String)
  | itemAcquired (item : String) (quantity : UInt32)
  | encounter (enemies : List String) (outcome : EncounterOutcome)
  | enemyVictory (enemies : List String)
deriving DecidableEq, Repr

namespace Payload

/-- The name of a payload's kind. -/
def kind : Payload → String
  | .empty => "empty"
  | .talkedTo .. => "talked_to"
  | .playerAction .. => "player_action"
  | .enteredRoom .. => "entered_room"
  | .questStageReached .. => "quest_stage_reached"
  | .itemAcquired .. => "item_acquired"
  | .encounter .. => "encounter"
  | .enemyVictory .. => "enemy_victory"

/-- The fields of a payload by kind. -/
def fields (levels : Nat) : String → Option (FieldReader Json Payload)
  | "talked_to" => some do
      return .talkedTo (← FieldReader.required ["npc"] (Decoder.text levels))
  | "player_action" => some do
      let action ← FieldReader.required ["action"] (Decoder.text levels)
      let item ← FieldReader.spelled "item" (Decoder.optional Decoder.text levels)
      return .playerAction action item
  | "entered_room" => some do
      return .enteredRoom
        (← FieldReader.spelled "room_id" (Decoder.optional Decoder.text levels))
  | "quest_stage_reached" => some do
      let quest ← FieldReader.required ["quest_id"] (Decoder.text levels)
      let stage ← FieldReader.required ["stage_id"] (Decoder.text levels)
      return .questStageReached quest stage
  | "item_acquired" => some do
      let item ← FieldReader.required ["item_id"] (Decoder.text levels)
      let quantity ← FieldReader.required ["quantity"] (Decoder.quantity levels)
      return .itemAcquired item quantity
  | "encounter" => some do
      let enemies ← FieldReader.required ["enemy_ids"] (Decoder.list Decoder.text levels)
      let outcome ← FieldReader.required ["outcome"]
        (Decoder.choice blankContent EncounterOutcome.choices levels)
      return .encounter enemies outcome
  | "enemy_victory" => some do
      return .enemyVictory
        (← FieldReader.required ["enemy_ids"] (Decoder.list Decoder.text levels))
  | "empty" => some (pure .empty)
  | _ => none
where
  /-- What may stand beside the name of an outcome. -/
  blankContent : Json → Bool
    | .null => true
    | .object [] => true
    | _ => false

/-- Decodes a payload: an object with exactly one `kind`, or an array that starts with the
kind. -/
def decode : Decoder Payload := fun levels j =>
  if j.sound levels then
    match j with
    | .object ms =>
        match ms.filter (·.1 == "kind") with
        | [(_, .string kind)] => do
            (← fields (levels - 1) kind).readFrom false (.named (ms.filter (·.1 != "kind")))
        | _ => none
    | .array (.string kind :: items) => do
        (← fields (levels - 1) kind).readFrom false (.listed items)
    | _ => none
  else none

end Payload

/-- A payload is shown as an object tagged by its kind. -/
instance : ToJson Payload :=
  ⟨fun p => .object (("kind", toJson p.kind) :: match p with
    | .empty => []
    | .talkedTo npc => [("npc", toJson npc)]
    | .playerAction action item => [("action", toJson action), ("item", toJson item)]
    | .enteredRoom room => [("room_id", toJson room)]
    | .questStageReached quest stage => [("quest_id", toJson quest), ("stage_id", toJson stage)]
    | .itemAcquired item quantity => [("item_id", toJson item), ("quantity", toJson quantity)]
    | .encounter enemies outcome =>
        [("enemy_ids", toJson enemies), ("outcome", toJson outcome.name)]
    | .enemyVictory enemies => [("enemy_ids", toJson enemies)])⟩

end Narrative
