import Narrative.Authored.Condition
import Narrative.SessionState
import Narrative.Config

set_option autoImplicit false

/-!
# Conditions

The closed vocabulary of preconditions, compiled from authored records and evaluated
against a session state. A type outside the vocabulary compiles to `unknown`; its
truth is a matter of policy and not of the state.
-/

namespace Narrative

/-- A compiled precondition. -/
inductive Condition where
  | milestoneSet (milestone : String)
  | milestoneNotSet (milestone : String)
  | questActive (quest : String)
  | questNotStarted (quest : String)
  | questCompleted (quest : String)
  | questNotCompleted (quest : String)
  | questFailed (quest : String)
  | questStage (quest stage : String)
  | questStageNot (quest stage : String)
  | questTaskDone (quest task : String)
  | questTaskNotDone (quest task : String)
  | eventCompleted (event : String)
  | eventNotCompleted (event : String)
  | tutorialCompleted (tutorial : String)
  | tutorialNotCompleted (tutorial : String)
  | hasItem (item : String) (quantity : UInt32)
  | lacksItem (item : String) (quantity : UInt32)
  | unknown (type : String)
deriving DecidableEq, Repr

namespace Condition

/-- The known condition of a type key, with its fields trimmed; blank fields become the empty
id. -/
def known? (key : String) (c : Authored.Condition) : Option Condition :=
  let id (field : Option String) := (Text.firstPresent field none).getD ""
  let quest := id c.questId
  let item := (Text.firstPresent c.itemId c.item).getD ""
  let quantity := Quantity.normalize c.quantity
  match key with
  | "milestone_set" | "milestone" | "has_milestone" => some (.milestoneSet (id c.milestone))
  | "milestone_not_set" => some (.milestoneNotSet (id c.milestone))
  | "quest_active" => some (.questActive quest)
  | "quest_not_started" => some (.questNotStarted quest)
  | "quest_completed" => some (.questCompleted quest)
  | "quest_not_completed" => some (.questNotCompleted quest)
  | "quest_failed" => some (.questFailed quest)
  | "quest_stage" | "quest_stage_equals" => some (.questStage quest (id c.stageId))
  | "quest_stage_not" | "quest_stage_not_equals" => some (.questStageNot quest (id c.stageId))
  | "quest_task_done" | "quest_task_complete" => some (.questTaskDone quest (id c.taskId))
  | "quest_task_not_done" => some (.questTaskNotDone quest (id c.taskId))
  | "event_completed" => some (.eventCompleted (id c.eventId))
  | "event_not_completed" => some (.eventNotCompleted (id c.eventId))
  | "tutorial_completed" | "tutorial_seen" => some (.tutorialCompleted (id c.tutorialId))
  | "tutorial_not_completed" => some (.tutorialNotCompleted (id c.tutorialId))
  | "item" | "has_item" => some (.hasItem item quantity)
  | "item_not" | "missing_item" => some (.lacksItem item quantity)
  | _ => none

/-- The type that a record names is not looked at when its fields are read. -/
theorem known?_retyped (key type : String) (c : Authored.Condition) :
    known? key { c with type } = known? key c :=
  rfl

/-- Compiles an authored condition. -/
def ofAuthored (c : Authored.Condition) : Condition :=
  let key := Text.typeKey c.type
  (known? key c).getD (.unknown key)

/-- Whether a quest stands at a stage, up to ASCII case; the empty id stands nowhere. -/
def standsAt (s : SessionState) (quest stage : String) : Bool :=
  !quest.isEmpty && !stage.isEmpty &&
    match s.questStages.get? quest with
    | some current => Text.sameId current stage
    | none => false

/-- The truth of a condition in a state; nothing for an unknown type. -/
def evaluate (s : SessionState) : Condition → Option Bool
  | .milestoneSet m => some (s.milestones.contains m)
  | .milestoneNotSet m => some (!s.milestones.contains m)
  | .questActive q => some (s.activeQuests.contains q)
  | .questNotStarted q => some (s.questNotStarted q)
  | .questCompleted q => some (s.completedQuests.contains q)
  | .questNotCompleted q => some (!s.completedQuests.contains q)
  | .questFailed q => some (s.failedQuests.contains q)
  | .questStage q t => some (standsAt s q t)
  | .questStageNot q t => some (!standsAt s q t)
  | .questTaskDone q t => some (s.taskDone q t)
  | .questTaskNotDone q t => some (!s.taskDone q t)
  | .eventCompleted e => some (s.completedEvents.contains e)
  | .eventNotCompleted e => some (!s.completedEvents.contains e)
  | .tutorialCompleted t => some (s.tutorials.contains t)
  | .tutorialNotCompleted t => some (!s.tutorials.contains t)
  | .hasItem i n => some (decide (n ≤ s.inventory.quantity i))
  | .lacksItem i n => some (decide (s.inventory.quantity i < n))
  | .unknown _ => none

/-- The truth of a condition under a policy for unknown types. -/
def holds (policy : UnknownPolicy) (s : SessionState) (c : Condition) : Bool :=
  (c.evaluate s).getD policy.verdict

/-- Whether every condition of a list holds. -/
def allHold (policy : UnknownPolicy) (s : SessionState) (cs : List Condition) : Bool :=
  cs.all (holds policy s)

/-- The number of unknown types met while the conditions of a list are checked one after the
other up to the first that fails. -/
def unknownsMet (policy : UnknownPolicy) (s : SessionState) : List Condition → Nat
  | [] => 0
  | c :: rest =>
      (if (c.evaluate s).isNone then 1 else 0) +
        if c.holds policy s then unknownsMet policy s rest else 0

end Condition

/-- A condition is shown as a list that starts with its type. -/
instance : ToJson Condition :=
  ⟨fun c => .array (match c with
    | .milestoneSet m => ["milestone_set", m].map toJson
    | .milestoneNotSet m => ["milestone_not_set", m].map toJson
    | .questActive q => ["quest_active", q].map toJson
    | .questNotStarted q => ["quest_not_started", q].map toJson
    | .questCompleted q => ["quest_completed", q].map toJson
    | .questNotCompleted q => ["quest_not_completed", q].map toJson
    | .questFailed q => ["quest_failed", q].map toJson
    | .questStage q t => ["quest_stage", q, t].map toJson
    | .questStageNot q t => ["quest_stage_not", q, t].map toJson
    | .questTaskDone q t => ["quest_task_done", q, t].map toJson
    | .questTaskNotDone q t => ["quest_task_not_done", q, t].map toJson
    | .eventCompleted e => ["event_completed", e].map toJson
    | .eventNotCompleted e => ["event_not_completed", e].map toJson
    | .tutorialCompleted t => ["tutorial_completed", t].map toJson
    | .tutorialNotCompleted t => ["tutorial_not_completed", t].map toJson
    | .hasItem i n => [toJson "item", toJson i, toJson n]
    | .lacksItem i n => [toJson "item_not", toJson i, toJson n]
    | .unknown t => ["unknown", t].map toJson)⟩

end Narrative
