import Narrative.Authored.Event
import Narrative.Action
import Narrative.Trigger
import Narrative.LoadError
import Narrative.Game
import Narrative.Json.Reader

set_option autoImplicit false

/-!
# Events and catalogs

A catalog holds the compiled events of a story in authored order, with an index from
type keys to the events that listen for them. Ids that are not blank are distinct;
blank ids are allowed any number of times and can be neither looked up nor recorded
as fired.
-/

namespace Narrative

/-- A compiled story event. -/
structure Event where
  id : String
  trigger : Trigger
  conditions : List Condition
  actions : List Action
  repeatable : Bool

namespace Event

/-- Compiles an authored event. -/
def ofAuthored (e : Authored.Event) : Event where
  id := Text.trim e.id
  trigger := Trigger.ofAuthored e.trigger
  conditions := e.conditions.map Condition.ofAuthored
  actions := Action.ofAuthoredList e.actions
  repeatable := e.repeatable

/-- Whether an event has an id that is not blank. -/
def hasId (e : Event) : Bool := !(Text.trim e.id).isEmpty

/-- Whether a fired event is recorded: it must not fire again, and has an id to record. -/
def isOnce (e : Event) : Bool := !e.repeatable && e.hasId

/-- Whether an event must be skipped because it is recorded as fired. -/
def isCompleted (e : Event) (s : SessionState) : Bool :=
  e.isOnce && s.completedEvents.contains e.id

/-- The game after an event has fired: an event that must not fire again is recorded. -/
def record (e : Event) (g : Game) : Game :=
  if e.isOnce then g.markEvent e.id else g

/-- The unknown types of an event, each with the part of the event it stands in. -/
def unknownTypes (e : Event) : List String :=
  (match e.trigger.kind with
    | .other type => ["trigger:" ++ type]
    | _ => []) ++
  e.conditions.flatMap (fun
    | .unknown type => ["condition:" ++ type]
    | _ => []) ++
  (Action.unknownTypesOf e.actions).map ("action:" ++ ·)

end Event

/-- An event at its position in a catalog. -/
structure Candidate where
  position : Nat
  event : Event

/-- An indexed list of events. -/
structure Catalog where
  events : List Event
  byTrigger : IdMap (List Candidate)

namespace Catalog

/-- The catalog without events. -/
def empty : Catalog := ⟨[], ∅⟩

instance : EmptyCollection Catalog := ⟨empty⟩

instance : Inhabited Catalog := ⟨empty⟩

/-- Adds one event to the index, after the events already there. -/
def enroll (index : IdMap (List Candidate)) (c : Candidate) : IdMap (List Candidate) :=
  let key := c.event.trigger.typeKey
  index.insert key ((index.get? key).getD [] ++ [c])

/-- Indexes the events from a position on, given the ids seen and the index built before it. -/
def indexFrom (seen : IdSet) (index : IdMap (List Candidate)) (position : Nat) :
    List Event → Except LoadError (IdMap (List Candidate))
  | [] => .ok index
  | e :: rest =>
      -- blank ids never collide
      if e.hasId && seen.contains e.id then .error (.duplicateEvent e.id)
      else
        indexFrom (if e.hasId then seen.add e.id else seen) (enroll index ⟨position, e⟩)
          (position + 1) rest

/-- The catalog of a list of events, unless two share an id. -/
def ofEvents (events : List Event) : Except LoadError Catalog :=
  (indexFrom ∅ ∅ 0 events).map fun index => ⟨events, index⟩

/-- The catalog of authored events. -/
def ofAuthored (events : List Authored.Event) : Except LoadError Catalog :=
  ofEvents (events.map Event.ofAuthored)

/-- The authored events of a document: a list, or an object that wraps one. -/
def authored? : Json → Option (List Authored.Event)
  | .object ms =>
      match ms.filter (·.1 == "events") with
      | [(_, events)] => Decoder.list Authored.Event.decode Json.maxLevels events
      | _ => none
  | j => Decoder.list Authored.Event.decode Json.maxLevels j

/-- The catalog of a JSON value. Every part of it counts, read or not. -/
def ofJson (j : Json) : Except LoadError Catalog :=
  if j.sound Json.maxLevels then
    match authored? j with
    | some events => ofAuthored events
    | none => .error .catalogShape
  else .error .catalogText

/-- The catalog of a JSON text. -/
def ofText (s : String) : Except LoadError Catalog :=
  match Json.parse? s with
  | some j => ofJson j
  | none => .error .catalogText

/-- The events that listen for a trigger type, in catalog order. -/
def candidates (c : Catalog) (triggerType : String) : List Candidate :=
  (c.byTrigger.get? (Text.typeKey triggerType)).getD []

/-- The position of the event with an id that is not blank. -/
def position? (c : Catalog) (id : String) : Option Nat :=
  c.events.findIdx? fun e => e.hasId && e.id == id

/-- The event with an id that is not blank. -/
def get? (c : Catalog) (id : String) : Option Event :=
  c.events.find? fun e => e.hasId && e.id == id

end Catalog

/-- An event is shown compiled. -/
instance : ToJson Event :=
  ⟨fun e => .object [
    ("id", toJson e.id), ("has_id", toJson e.hasId), ("repeatable", toJson e.repeatable),
    ("trigger", toJson e.trigger), ("conditions", toJson e.conditions),
    ("actions", toJson e.actions), ("unknown_types", toJson e.unknownTypes)]⟩

end Narrative
