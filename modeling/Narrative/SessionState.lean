import Narrative.Inventory
import Narrative.Json.Decoder

set_option autoImplicit false

/-!
# Session state

What conditions and triggers can see of a saved game. The engine reads one snapshot
of it per dispatch and never writes to it, apart from recording a fired event.
-/

namespace Narrative

/-- The part of a saved game that rules are evaluated against. -/
structure SessionState where
  activeQuests : IdSet := ∅
  completedQuests : IdSet := ∅
  failedQuests : IdSet := ∅
  questStages : IdMap String := ∅
  completedTasks : IdMap IdSet := ∅
  milestones : IdSet := ∅
  tutorials : IdSet := ∅
  inventory : Inventory := ∅
  completedEvents : IdSet := ∅
  currentRoom : Option String := none
deriving DecidableEq

instance : Inhabited SessionState := ⟨{}⟩

namespace SessionState

/-- Whether a task of a quest is done. -/
def taskDone (s : SessionState) (quest task : String) : Bool :=
  match s.completedTasks.get? quest with
  | some tasks => tasks.contains task
  | none => false

/-- Whether a quest is neither active nor completed nor failed. -/
def questNotStarted (s : SessionState) (quest : String) : Bool :=
  !s.activeQuests.contains quest && !s.completedQuests.contains quest &&
    !s.failedQuests.contains quest

/-- Decodes a set of ids. -/
def decodeIds : Decoder IdSet := fun levels j =>
  (Decoder.list Decoder.text levels j).map IdSet.ofIds

/-- Decodes a map of ids; of a repeated key the last value stays. -/
def decodeMap {β : Type} (read : Decoder β) : Decoder (IdMap β) := fun levels j =>
  (Decoder.members read levels j).map IdMap.ofList

/-- Decodes a session state; every field may be left out. -/
def decode : Decoder SessionState :=
  Decoder.record fun levels => do
    let ids name := FieldReader.field name ∅ (decodeIds levels)
    let activeQuests ← ids "active_quests"
    let completedQuests ← ids "completed_quests"
    let failedQuests ← ids "failed_quests"
    let questStages ← FieldReader.field "quest_stages" ∅ (decodeMap Decoder.text levels)
    let completedTasks ← FieldReader.field "completed_tasks" ∅ (decodeMap decodeIds levels)
    let milestones ← ids "milestones"
    let tutorials ← ids "tutorials"
    let inventory ← FieldReader.field "inventory" ∅ (decodeMap Decoder.quantity levels)
    let completedEvents ← ids "completed_events"
    let currentRoom ←
      FieldReader.field "current_room" none (Decoder.optional Decoder.text levels)
    return {
      activeQuests, completedQuests, failedQuests, questStages, completedTasks, milestones,
      tutorials, inventory, completedEvents, currentRoom }

end SessionState

/-- A set is shown as the list of its ids. -/
instance (priority := high) : ToJson IdSet := ⟨fun s => toJson s.keys⟩

/-- A map is shown as an object. -/
instance {β : Type} [ToJson β] : ToJson (IdMap β) :=
  ⟨fun m => .object (m.entries.map fun (k, v) => (k, toJson v))⟩

/-- A session state is shown with every field. -/
instance : ToJson SessionState :=
  ⟨fun s => .object [
    ("active_quests", toJson s.activeQuests),
    ("completed_quests", toJson s.completedQuests),
    ("failed_quests", toJson s.failedQuests),
    ("quest_stages", toJson s.questStages),
    ("completed_tasks", toJson s.completedTasks),
    ("milestones", toJson s.milestones),
    ("tutorials", toJson s.tutorials),
    ("inventory", toJson s.inventory),
    ("completed_events", toJson s.completedEvents),
    ("current_room", toJson s.currentRoom)]⟩

end Narrative
