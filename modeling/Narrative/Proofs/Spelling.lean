import Narrative.Proofs.Wording
import Narrative.Catalog

set_option autoImplicit false

/-!
# Spellings of authored events

Writers may spell an event in many ways: the case of the ASCII letters in a type string and the
blanks around any string are up to them. Of all the spellings of an event one is normal, and
compiling looks at the normal one only (`Event.ofAuthored_normalized`); so all of them come to the
same event (`spellings_compile_alike`). Three things are kept as they were written: the enemies of a
trigger, the reason why a quest fails, and the items of a reward.

Compiled events hold normal text: an id is either left out or tidy, and quantities are at least one,
at every depth (`Event.IsTidy`).
-/

namespace Narrative

open Text (tidy? firstPresent)

/-! ## Normal spellings -/

namespace Authored

/-- The normal spelling of a condition. -/
def Condition.normalized (c : Condition) : Condition where
  type := Text.typeKey c.type
  milestone := tidy? c.milestone
  questId := tidy? c.questId
  stageId := tidy? c.stageId
  taskId := tidy? c.taskId
  eventId := tidy? c.eventId
  tutorialId := tidy? c.tutorialId
  itemId := tidy? c.itemId
  item := tidy? c.item
  quantity := c.quantity

/-- The normal spelling of a trigger. The enemies are kept as written. -/
def Trigger.normalized (t : Trigger) : Trigger where
  type := Text.typeKey t.type
  npc := tidy? t.npc
  roomId := tidy? t.roomId
  room := tidy? t.room
  action := tidy? t.action
  itemId := tidy? t.itemId
  item := tidy? t.item
  questId := tidy? t.questId
  enemies := t.enemies

/-- The normal spelling of the fields of an action. The reason and the items of a reward are kept
as written. -/
def ActionFields.normalized (a : ActionFields) : ActionFields :=
  { a with
    type := Text.typeKey a.type
    milestone := tidy? a.milestone
    questId := tidy? a.questId
    startQuest := tidy? a.startQuest
    completeQuest := tidy? a.completeQuest
    failQuest := tidy? a.failQuest
    stageId := tidy? a.stageId
    taskId := tidy? a.taskId
    eventId := tidy? a.eventId
    tutorialId := tidy? a.tutorialId
    itemId := tidy? a.itemId
    item := tidy? a.item
    roomId := tidy? a.roomId
    room := tidy? a.room
    stateKey := tidy? a.stateKey
    encounterId := tidy? a.encounterId
    memberId := tidy? a.memberId
    note := tidy? a.note
    sceneId := tidy? a.sceneId
    context := tidy? a.context
    message := tidy? a.message
    text := tidy? a.text
    layer := tidy? a.layer
    cueId := tidy? a.cueId
    action := tidy? a.action }

mutual

/-- The normal spelling of an action, at every depth. -/
def Action.normalized : Action → Action
  | .mk fields thenDo elseDo onComplete =>
      .mk fields.normalized (normalizedList thenDo) (normalizedList elseDo)
        (normalizedList onComplete)

/-- The normal spellings of the actions of a list. -/
def Action.normalizedList : List Action → List Action
  | [] => []
  | a :: rest => a.normalized :: normalizedList rest

end

/-- The normal spelling of an event. -/
def Event.normalized (e : Event) : Event where
  id := Text.trim e.id
  trigger := e.trigger.normalized
  conditions := e.conditions.map Condition.normalized
  actions := Action.normalizedList e.actions
  repeatable := e.repeatable

end Authored

/-! ## Compiling looks at the normal spelling -/

/-- The fields of a condition are read in normal form. -/
theorem Condition.known?_normalized (key : String) (c : Authored.Condition) :
    Condition.known? key c.normalized = Condition.known? key c := by
  -- the key stays as it is, so the cases need not be told apart
  unfold Condition.known?
  simp -iota only [Authored.Condition.normalized, Text.firstPresent_tidy?,
    Text.firstPresent_tidy?_none]

theorem Condition.ofAuthored_normalized (c : Authored.Condition) :
    Condition.ofAuthored c.normalized = Condition.ofAuthored c := by
  have htype : Text.typeKey c.normalized.type = Text.typeKey c.type := Text.typeKey_typeKey c.type
  rw [Condition.ofAuthored, htype, Condition.known?_normalized, ← Condition.ofAuthored]

theorem Trigger.ofAuthored_normalized (t : Authored.Trigger) :
    Trigger.ofAuthored t.normalized = Trigger.ofAuthored t := by
  simp only [Trigger.ofAuthored, Authored.Trigger.normalized, Text.typeKey_typeKey,
    Text.firstPresent_tidy?, Text.firstPresent_tidy?_none]

/-- The fields of a deed are read in normal form. -/
theorem Deed.known?_normalized (key : String) (a : Authored.ActionFields) :
    Deed.known? key a.normalized = Deed.known? key a := by
  unfold Deed.known?
  simp -iota only [Authored.ActionFields.normalized, Authored.ActionFields.rewardSpec,
    Text.firstPresent_tidy?, Text.firstPresent_tidy?_none, Text.firstPresent_none_tidy?]

/-- So are those of a condition in an action. -/
theorem Action.test?_normalized (key : String) (a : Authored.ActionFields) :
    Action.test? key a.normalized = Action.test? key a := by
  have hrecord (k : String) :
      a.normalized.asCondition k = { (a.asCondition k).normalized with type := k } := rfl
  have hknown (k : String) : Condition.known? k (a.normalized.asCondition k) =
      Condition.known? k (a.asCondition k) := by
    rw [hrecord, Condition.known?_retyped, Condition.known?_normalized]
  simp only [Action.test?, hknown]

mutual

theorem Action.ofAuthored_normalized : ∀ a : Authored.Action,
    Action.ofAuthored a.normalized = Action.ofAuthored a
  | .mk fields thenDo elseDo onComplete => by
      have htype : Text.typeKey fields.normalized.type = Text.typeKey fields.type :=
        Text.typeKey_typeKey fields.type
      have hscene : firstPresent fields.normalized.sceneId none = firstPresent fields.sceneId none :=
        Text.firstPresent_tidy?_none fields.sceneId
      have hcontext : firstPresent fields.normalized.context none = firstPresent fields.context none :=
        Text.firstPresent_tidy?_none fields.context
      have haction : firstPresent fields.normalized.action none = firstPresent fields.action none :=
        Text.firstPresent_tidy?_none fields.action
      have hitem : firstPresent fields.normalized.itemId fields.normalized.item =
          firstPresent fields.itemId fields.item :=
        Text.firstPresent_tidy? fields.itemId fields.item
      unfold Authored.Action.normalized Action.ofAuthored
      simp -iota only [htype, hscene, hcontext, haction, hitem, Deed.known?_normalized,
        Action.test?_normalized, Action.ofAuthoredList_normalized thenDo,
        Action.ofAuthoredList_normalized elseDo, Action.ofAuthoredList_normalized onComplete]

theorem Action.ofAuthoredList_normalized : ∀ l : List Authored.Action,
    Action.ofAuthoredList (Authored.Action.normalizedList l) = Action.ofAuthoredList l
  | [] => rfl
  | a :: rest => by
      rw [Authored.Action.normalizedList, Action.ofAuthoredList, Action.ofAuthoredList,
        Action.ofAuthored_normalized a, Action.ofAuthoredList_normalized rest]

end

/-- **Compiling looks at the normal spelling** of an event only. -/
theorem Event.ofAuthored_normalized (e : Authored.Event) :
    Event.ofAuthored e.normalized = Event.ofAuthored e := by
  simp only [Event.ofAuthored, Authored.Event.normalized, Text.trim_trim,
    Trigger.ofAuthored_normalized, Action.ofAuthoredList_normalized, List.map_map,
    Function.comp_def, Condition.ofAuthored_normalized]

/-! ## Compiled text -/

/-- The ids that a condition names, or its type if that is unknown. -/
def Condition.ids : Condition → List String
  | .milestoneSet id | .milestoneNotSet id | .questActive id | .questNotStarted id
  | .questCompleted id | .questNotCompleted id | .questFailed id | .eventCompleted id
  | .eventNotCompleted id | .tutorialCompleted id | .tutorialNotCompleted id
  | .hasItem id _ | .lacksItem id _ => [id]
  | .questStage quest id | .questStageNot quest id | .questTaskDone quest id
  | .questTaskNotDone quest id => [quest, id]
  | .unknown type => [type]

/-- The quantity of an item that a condition looks for. -/
def Condition.quantity? : Condition → Option UInt32
  | .hasItem _ quantity | .lacksItem _ quantity => some quantity
  | _ => none

/-- A condition that names trimmed ids and looks for at least one of an item. -/
structure Condition.IsTidy (c : Condition) : Prop where
  ids : ∀ id ∈ c.ids, Text.trim id = id
  quantity : ∀ n ∈ c.quantity?, 1 ≤ n

/-- The ids and texts of a deed, apart from the reason why a quest fails and the items of a
reward. -/
def Deed.texts : Deed → List (Option String)
  | .setMilestone id | .startQuest id | .completeQuest id | .failQuest id _
  | .partyMemberJoined id => [id]
  | .advanceQuestStage quest id | .updateQuestTask quest id => [quest, id]
  | .giveItem item _ | .takeItem item _ => [item]
  | .spawnGroundItem room item _ => [room, item]
  | .showMessage text _ => [text]
  | .setRoomState room key _ => [room, key]
  | .spawnEncounter encounter room => [encounter, room]
  | .unlockRoomSearch room note => [room, note]
  | .audio command => [command.layer, command.cue]
  | .giveXp _ | .giveReward _ => []

/-- The quantity of an item that a deed is about. -/
def Deed.quantity? : Deed → Option UInt32
  | .giveItem _ quantity | .takeItem _ quantity | .spawnGroundItem _ _ quantity => some quantity
  | _ => none

/-- A deed whose ids and texts are left out or tidy, and that is about at least one of an item. -/
structure Deed.IsTidy (d : Deed) : Prop where
  texts : ∀ field ∈ d.texts, Text.IsTidyField field
  quantity : ∀ n ∈ d.quantity?, 1 ≤ n

theorem Condition.isTidy_known? {key : String} {c : Authored.Condition} {test : Condition}
    (h : Condition.known? key c = some test) : test.IsTidy := by
  have hid (primary fallback : Option String) :
      Text.trim ((firstPresent primary fallback).getD "") =
        (firstPresent primary fallback).getD "" :=
    (Text.isTidyField_firstPresent primary fallback).trim_getD
  unfold Condition.known? at h
  split at h
  all_goals cases h
  all_goals
    exact ⟨by simp [Condition.ids, hid], by simp [Condition.quantity?, Quantity.one_le_normalize]⟩

theorem Deed.isTidy_known? {key : String} {a : Authored.ActionFields} {d : Deed}
    (h : Deed.known? key a = some d) : d.IsTidy := by
  unfold Deed.known? at h
  split at h
  all_goals cases h
  all_goals
    exact ⟨by simp [Deed.texts, Text.isTidyField_firstPresent],
      by simp [Deed.quantity?, Quantity.one_le_normalize]⟩

theorem Action.isTidy_test? {key : String} {a : Authored.ActionFields} {test : Condition}
    (h : Action.test? key a = some test) : test.IsTidy := by
  obtain ⟨k, -, hknown⟩ := Option.bind_eq_some_iff.1 h
  exact Condition.isTidy_known? hknown

theorem Condition.isTidy_ofAuthored (c : Authored.Condition) : (Condition.ofAuthored c).IsTidy := by
  rw [Condition.ofAuthored]
  cases hknown : Condition.known? (Text.typeKey c.type) c with
  | some test => exact Condition.isTidy_known? hknown
  | none => exact ⟨by simp [Condition.ids], by simp [Condition.quantity?]⟩

/-- The fields of a trigger are left out or tidy. The enemies are as they were written. -/
structure Trigger.IsTidy (t : Trigger) : Prop where
  typeKey : Text.typeKey t.typeKey = t.typeKey
  npc : Text.IsTidyField t.npc
  room : Text.IsTidyField t.room
  action : Text.IsTidyField t.action
  item : Text.IsTidyField t.item
  quest : Text.IsTidyField t.quest

theorem Trigger.isTidy_ofAuthored (t : Authored.Trigger) : (Trigger.ofAuthored t).IsTidy where
  typeKey := Text.typeKey_typeKey t.type
  npc := Text.isTidyField_firstPresent t.npc none
  room := Text.isTidyField_firstPresent t.roomId t.room
  action := Text.isTidyField_firstPresent t.action none
  item := Text.isTidyField_firstPresent t.itemId t.item
  quest := Text.isTidyField_firstPresent t.questId none

/-- The ids and texts of an action are left out or tidy, and so are those of the actions inside it. -/
inductive Action.IsTidy : Action → Prop where
  | deed {d : Deed} (hdeed : d.IsTidy) : IsTidy (.deed d)
  | branch {test : Condition} {thenDo elseDo : List Action} (htest : test.IsTidy)
      (hthen : ∀ a ∈ thenDo, a.IsTidy) (helse : ∀ a ∈ elseDo, a.IsTidy) :
      IsTidy (.branch test thenDo elseDo)
  | playCinematic {scene : Option String} {onComplete : List Action}
      (hscene : Text.IsTidyField scene) (hcomplete : ∀ a ∈ onComplete, a.IsTidy) :
      IsTidy (.playCinematic scene onComplete)
  | systemTutorial {scene context : Option String} {onComplete : List Action}
      (hscene : Text.IsTidyField scene) (hcontext : Text.IsTidyField context)
      (hcomplete : ∀ a ∈ onComplete, a.IsTidy) : IsTidy (.systemTutorial scene context onComplete)
  | playerAction {action item : Option String} (haction : Text.IsTidyField action)
      (hitem : Text.IsTidyField item) : IsTidy (.playerAction action item)
  | unknown {type : String} (htype : Text.typeKey type = type) : IsTidy (.unknown type)

/-- A compiled action holds normal text if the actions inside it do. -/
theorem Action.isTidy_mk (fields : Authored.ActionFields)
    {thenDo elseDo onComplete : List Authored.Action}
    (hthen : ∀ a ∈ ofAuthoredList thenDo, a.IsTidy) (helse : ∀ a ∈ ofAuthoredList elseDo, a.IsTidy)
    (hcomplete : ∀ a ∈ ofAuthoredList onComplete, a.IsTidy) :
    (ofAuthored (.mk fields thenDo elseDo onComplete)).IsTidy := by
  unfold ofAuthored
  dsimp only
  split
  · next hdeed =>
      exact .deed (Deed.isTidy_known? hdeed)
  split
  · exact .playCinematic (Text.isTidyField_firstPresent _ _) hcomplete
  · exact .playCinematic (Text.isTidyField_firstPresent _ _) hcomplete
  · exact .systemTutorial (Text.isTidyField_firstPresent _ _) (Text.isTidyField_firstPresent _ _)
      hcomplete
  · exact .playerAction (Text.isTidyField_firstPresent _ _) (Text.isTidyField_firstPresent _ _)
  split
  · next htest =>
      exact .branch (isTidy_test? htest) hthen helse
  · exact .unknown (Text.typeKey_typeKey fields.type)

mutual

theorem Action.isTidy_ofAuthored : ∀ a : Authored.Action, (Action.ofAuthored a).IsTidy
  | .mk fields thenDo elseDo onComplete =>
      Action.isTidy_mk fields (Action.isTidy_ofAuthoredList thenDo)
        (Action.isTidy_ofAuthoredList elseDo) (Action.isTidy_ofAuthoredList onComplete)

theorem Action.isTidy_ofAuthoredList : ∀ l : List Authored.Action,
    ∀ a ∈ Action.ofAuthoredList l, a.IsTidy
  | [] => List.forall_mem_nil _
  | a :: rest => List.forall_mem_cons.2
      ⟨Action.isTidy_ofAuthored a, Action.isTidy_ofAuthoredList rest⟩

end

/-- The text of an event is normal, at every depth, apart from what is kept as written. -/
structure Event.IsTidy (e : Event) : Prop where
  id : Text.trim e.id = e.id
  trigger : e.trigger.IsTidy
  conditions : ∀ c ∈ e.conditions, c.IsTidy
  actions : ∀ a ∈ e.actions, a.IsTidy

/-- **Compiled events hold normal text.** -/
theorem Event.isTidy_ofAuthored (e : Authored.Event) : (Event.ofAuthored e).IsTidy where
  id := Text.trim_trim e.id
  trigger := Trigger.isTidy_ofAuthored e.trigger
  conditions c hc := by
    obtain ⟨a, -, rfl⟩ := List.mem_map.1 hc
    exact Condition.isTidy_ofAuthored a
  actions := Action.isTidy_ofAuthoredList e.actions

/-! ## Compiling -/

/-- **Compiling sees normal text only.** Take any two spellings of an event: at any depth the type
strings have the same type keys, and the other strings are the same when trimmed, or are blank or
left out in both; only the enemies, the reasons and the items of rewards are spelled the same. Then
they come to the same compiled event. In it every id or text that is present is trimmed and not
empty, apart from those three, and every quantity of an item is at least one. -/
theorem spellings_compile_alike (e : Authored.Event) :
    (∀ e' : Authored.Event, e'.normalized = e.normalized →
      Event.ofAuthored e' = Event.ofAuthored e) ∧
    (Event.ofAuthored e).IsTidy := by
  refine ⟨fun e' h => ?_, Event.isTidy_ofAuthored e⟩
  rw [← Event.ofAuthored_normalized e', h, Event.ofAuthored_normalized]

/-- A toast for everybody who holds a mug. -/
def toast : Authored.Event where
  id := "toast"
  trigger := { type := "player_action", action := some "drink" }
  actions := [.mk { type := "if_item", itemId := some "mug" }
    [.mk { type := "show_message", text := some "Cheers!" } [] [] []] [] []]

/-- The same toast in another hand. -/
def scribbledToast : Authored.Event where
  id := " toast"
  trigger := { type := "Player_Action ", action := some " drink" }
  actions := [.mk { type := " If_Item", itemId := some "mug " }
    [.mk { type := "SHOW_MESSAGE", message := some " ", text := some "Cheers! " } [] [] []] [] []]

theorem scribbled_toast_is_legible :
    scribbledToast.normalized = toast.normalized ∧
      Event.ofAuthored scribbledToast = Event.ofAuthored toast := by
  have hspelling : scribbledToast.normalized = toast.normalized := by
    have hid : Text.trim " toast" = Text.trim "toast" := by decide +kernel
    have htrigger : Text.typeKey "Player_Action " = Text.typeKey "player_action" := by
      decide +kernel
    have haction : tidy? (some " drink") = tidy? (some "drink") := by decide +kernel
    have hbranch : Text.typeKey " If_Item" = Text.typeKey "if_item" := by decide +kernel
    have hitem : tidy? (some "mug ") = tidy? (some "mug") := by decide +kernel
    have hdeed : Text.typeKey "SHOW_MESSAGE" = Text.typeKey "show_message" := by decide +kernel
    have hblank : tidy? (some " ") = tidy? none := by decide +kernel
    have htext : tidy? (some "Cheers! ") = tidy? (some "Cheers!") := by decide +kernel
    simp only [scribbledToast, toast, Authored.Event.normalized, Authored.Trigger.normalized,
      Authored.Action.normalizedList, Authored.Action.normalized, Authored.ActionFields.normalized,
      hid, htrigger, haction, hbranch, hitem, hdeed, hblank, htext]
  exact ⟨hspelling, (spellings_compile_alike toast).1 scribbledToast hspelling⟩

end Narrative
