import Narrative.Catalog
import Narrative.Payload
import Narrative.Proofs.Reading

set_option autoImplicit false

/-!
# Records survive being written and read

Every record of a story or a saved game is read back from the document it is written as:
rewards, payloads and session states always, an authored event as long as it sets no gain
and its actions nest no deeper than the reader goes (`reading_undoes_writing`). A gain is
shown by its bits, which a reader would take for a number, so nothing is said about it.

The sets and maps of a session state have no order of their own, and a document may list
them in any (`SessionState.WrittenAs`). They are read back because a map is built again from
its entries in any order. What the limit of the reader means is exact: an event that is shown
deeper than that is refused (`Authored.Event.recovers_toJson`).
-/

namespace Narrative

open Decoder FieldReader

/-! ## Rewards -/

/-- The item of a reward line is looked up under both its names and found under one. -/
theorem RewardItem.slot_item (item quantity : Json) :
    slot ["itemId", "item"] (.named [("itemId", item), ("quantity", quantity)]) =
      some (.given item, .named [("itemId", item), ("quantity", quantity)]) := by
  simp [slot]

instance : Faithful RewardItem.decode where
  recovers line levels := by
    cases levels with
    | zero => rfl
    | succ n =>
        have hitem : required ["itemId", "item"] (text n)
              (.named [("itemId", toJson line.item), ("quantity", toJson line.quantity)]) =
            (text n (toJson line.item)).map (·, _) := given_run (RewardItem.slot_item _ _) rfl
        have hquantity : Takes n
            (do return RewardItem.mk line.item (← field "quantity" 1 (quantity n)))
            [("quantity", toJson line.quantity)] line := takes_value Takes.pure
        refine record_object ((bind_run hitem).trans ?_)
        exact hquantity (by simp) (by simp)
  strict := record_strict _

instance : Faithful Reward.decode where
  recovers r := by
    refine recovers_record (by simp) fun levels => ?_
    iterate 4 refine takes_value ?_
    exact Takes.pure
  strict := record_strict _

/-! ## Session states -/

/-- A document lists the ids of a set, in any order. -/
def IdSet.ListedAs (s : IdSet) (j : Json) : Prop :=
  ∃ ids : List String, ids.Perm s.keys ∧ j = toJson ids

/-- A document lists the entries of a map in any order, each value as it may be written. -/
def IdMap.ListedAs {β : Type} (written : β → Json → Prop) (m : IdMap β) (j : Json) : Prop :=
  ∃ listed : List (String × β × Json), (listed.map fun x => (x.1, x.2.1)).Perm m.entries ∧
    (∀ x ∈ listed, written x.2.1 x.2.2) ∧ j = .object (listed.map fun x => (x.1, x.2.2))

namespace SessionState

/-- A document has every field of a session state, with the sets and maps listed in any order. -/
inductive WrittenAs (s : SessionState) : Json → Prop where
  | intro {active completed failed stages tasks milestones tutorials inventory events : Json}
      (hactive : s.activeQuests.ListedAs active) (hcompleted : s.completedQuests.ListedAs completed)
      (hfailed : s.failedQuests.ListedAs failed)
      (hstages : s.questStages.ListedAs (fun stage j => j = toJson stage) stages)
      (htasks : s.completedTasks.ListedAs IdSet.ListedAs tasks)
      (hmilestones : s.milestones.ListedAs milestones) (htutorials : s.tutorials.ListedAs tutorials)
      (hinventory : IdMap.ListedAs (fun quantity j => j = toJson quantity) s.inventory inventory)
      (hevents : s.completedEvents.ListedAs events) :
      WrittenAs s (.object [
        ("active_quests", active), ("completed_quests", completed), ("failed_quests", failed),
        ("quest_stages", stages), ("completed_tasks", tasks), ("milestones", milestones),
        ("tutorials", tutorials), ("inventory", inventory), ("completed_events", events),
        ("current_room", toJson s.currentRoom)])

theorem recovers_decodeIds {ids : IdSet} {j : Json} (h : ids.ListedAs j) :
    Recovers decodeIds j ids := by
  obtain ⟨listed, hperm, rfl⟩ := h
  intro levels
  have hread : list text levels (toJson listed) = _ := recovers listed levels
  rw [decodeIds, hread, apply_ite (Option.map IdSet.ofIds), Option.map_some, IdSet.ofIds_perm hperm]
  rfl

theorem recovers_decodeMap {β : Type} {read : Decoder β} {written : β → Json → Prop}
    (hread : ∀ {b : β} {j : Json}, written b j → Recovers read j b) {m : IdMap β} {j : Json}
    (h : m.ListedAs written j) : Recovers (decodeMap read) j m := by
  obtain ⟨listed, hperm, hwritten, rfl⟩ := h
  have hmembers : Recovers (members read) (.object (listed.map fun x => (x.1, x.2.2)))
      (listed.map fun x => (x.1, x.2.1)) := recovers_members fun x hx => hread (hwritten x hx)
  intro levels
  rw [decodeMap, hmembers levels, apply_ite (Option.map IdMap.ofList), Option.map_some,
    IdMap.ofList_perm hperm]
  rfl

/-- A session state is recovered in whatever order its sets and maps are listed. -/
theorem recovers_decode {s : SessionState} {j : Json} (h : s.WrittenAs j) :
    Recovers decode j s := by
  obtain ⟨hactive, hcompleted, hfailed, hstages, htasks, hmilestones, htutorials, hinventory,
    hevents⟩ := h
  have hstage : ∀ {stage : String} {j : Json}, j = toJson stage → Recovers text j stage := by
    rintro stage _ rfl
    exact recovers stage
  have hquantity : ∀ {n : UInt32} {j : Json}, j = toJson n → Recovers quantity j n := by
    rintro n _ rfl
    exact recovers n
  refine recovers_record (by simp) fun levels => ?_
  refine Takes.bind (takes_field (recovers_decodeIds hactive levels)) ?_
  refine Takes.bind (takes_field (recovers_decodeIds hcompleted levels)) ?_
  refine Takes.bind (takes_field (recovers_decodeIds hfailed levels)) ?_
  refine Takes.bind (takes_field (recovers_decodeMap hstage hstages levels)) ?_
  refine Takes.bind (takes_field (recovers_decodeMap recovers_decodeIds htasks levels)) ?_
  refine Takes.bind (takes_field (recovers_decodeIds hmilestones levels)) ?_
  refine Takes.bind (takes_field (recovers_decodeIds htutorials levels)) ?_
  refine Takes.bind (takes_field (recovers_decodeMap hquantity hinventory levels)) ?_
  refine Takes.bind (takes_field (recovers_decodeIds hevents levels)) ?_
  exact takes_option Takes.pure

end SessionState

theorem IdSet.listedAs_toJson (ids : IdSet) : ids.ListedAs (toJson ids) :=
  ⟨ids.keys, .refl _, rfl⟩

theorem IdMap.listedAs_toJson {β : Type} [ToJson β] {written : β → Json → Prop}
    (h : ∀ b, written b (toJson b)) (m : IdMap β) : m.ListedAs written (toJson m) := by
  refine ⟨m.entries.map fun e => (e.1, e.2, toJson e.2), ?_, ?_, ?_⟩
  · rw [List.map_map]
    exact .of_eq (List.map_id _)
  · exact List.forall_mem_map.2 fun e _ => h e.2
  · rw [List.map_map]
    rfl

/-- What a session state is shown as is one of the documents that it may be written as. -/
theorem SessionState.writtenAs_toJson (s : SessionState) : s.WrittenAs (toJson s) := by
  have hids := IdSet.listedAs_toJson
  refine .intro (hids _) (hids _) (hids _) ?stages ?tasks (hids _) (hids _) ?inventory (hids _)
  case stages =>
    refine IdMap.listedAs_toJson (fun stage => ?_) s.questStages
    rfl
  case tasks => exact IdMap.listedAs_toJson hids s.completedTasks
  case inventory =>
    refine IdMap.listedAs_toJson (fun n => ?_) s.inventory
    rfl

/-! ## Payloads -/

namespace Payload

/-- A payload is recovered from an object that is tagged by its kind if the other members are
what the fields of the kind take. -/
theorem recovers_tagged {kind : String} {ms : List (String × Json)} {p : Payload}
    {body : Nat → FieldReader Json Payload} (hnames : ("kind" :: ms.map Prod.fst).Nodup)
    (hsound : ∀ m ∈ ms, m.2.sound 1 = true) (hfields : ∀ n, fields n kind = some (body n))
    (htakes : ∀ n, Takes n (body n) ms p) :
    Recovers decode (.object (("kind", .string kind) :: ms)) p := by
  intro levels
  have hdocument : (Json.object (("kind", .string kind) :: ms)).sound 2 = true := by
    simpa [Json.sound, Json.soundMembers] using Json.soundMembers_iff.2 hsound
  have hiff := Json.sound_iff_depth (n := levels) hdocument
  obtain ⟨hkind, hnames⟩ := List.nodup_cons.1 hnames
  have hother : ∀ m ∈ ms, m.1 ≠ "kind" := fun m hm heq => hkind (heq ▸ List.mem_map_of_mem hm)
  have htag : ms.filter (·.1 == "kind") = [] :=
    List.filter_eq_nil_iff.2 fun m hm => by simpa using hother m hm
  have hcontent : ms.filter (·.1 != "kind") = ms :=
    List.filter_eq_self.2 fun m hm => by simpa using hother m hm
  by_cases hlevels : (Json.object (("kind", .string kind) :: ms)).depth ≤ levels
  · have hms : Json.depthOfMembers ms ≤ levels - 1 := by
      simp only [Json.depth, Json.depthOfMembers] at hlevels
      omega
    have hread := htakes (levels - 1) hnames (List.Subset.refl ms)
    rw [if_pos hms] at hread
    rw [if_pos hlevels]
    simp [decode, hiff.2 hlevels, htag, hcontent, hfields, readFrom, hread]
  · rw [if_neg hlevels, decode, if_neg (mt hiff.1 hlevels)]

/-- The outcome of an encounter is recovered from its name. -/
theorem recovers_outcome (outcome : EncounterOutcome) :
    Recovers (choice fields.blankContent EncounterOutcome.choices) (toJson outcome.name)
      outcome := by
  intro levels
  cases outcome <;> rfl

instance : Faithful decode where
  recovers p := by
    cases p with
    | empty => exact recovers_tagged (by simp) (by simp) (fun _ => rfl) fun _ => Takes.pure
    | talkedTo npc =>
        exact recovers_tagged (by simp) (by simp) (fun _ => rfl) fun n =>
          Takes.bind (takes_required (recovers npc n)) Takes.pure
    | playerAction action item =>
        exact recovers_tagged (by simp) (by simp) (fun _ => rfl) fun n =>
          Takes.bind (takes_required (recovers action n)) <|
            Takes.bind (takes_spelled (recovers_optional item n)) Takes.pure
    | enteredRoom room =>
        exact recovers_tagged (by simp) (by simp) (fun _ => rfl) fun n =>
          Takes.bind (takes_spelled (recovers_optional room n)) Takes.pure
    | questStageReached quest stage =>
        exact recovers_tagged (by simp) (by simp) (fun _ => rfl) fun n =>
          Takes.bind (takes_required (recovers quest n)) <|
            Takes.bind (takes_required (recovers stage n)) Takes.pure
    | itemAcquired item quantity =>
        exact recovers_tagged (by simp) (by simp) (fun _ => rfl) fun n =>
          Takes.bind (takes_required (recovers item n)) <|
            Takes.bind (takes_required (recovers quantity n)) Takes.pure
    | encounter enemies outcome =>
        exact recovers_tagged (by simp) (by simp) (fun _ => rfl) fun n =>
          Takes.bind (takes_required (recovers enemies n)) <|
            Takes.bind (takes_required (recovers_outcome outcome n)) Takes.pure
    | enemyVictory enemies =>
        exact recovers_tagged (by simp) (by simp) (fun _ => rfl) fun n =>
          Takes.bind (takes_required (recovers enemies n)) Takes.pure
  strict _ := by simp [decode]

end Payload

/-! ## Authored records -/

namespace Authored

instance : Faithful Condition.decode where
  recovers c := by
    refine recovers_record (by simp) fun levels => ?_
    refine takes_value ?_
    iterate 9 refine takes_option ?_
    exact Takes.pure
  strict := record_strict _

instance : Faithful Trigger.decode where
  recovers t := by
    refine recovers_record (by simp) fun levels => ?_
    refine takes_value ?_
    iterate 7 refine takes_option ?_
    exact takes_value Takes.pure
  strict := record_strict _

/-- The fields of an action without a gain are taken from the members that show them. -/
theorem ActionFields.takes_members (a : ActionFields) (hgain : a.gain = none) (levels : Nat) :
    Takes levels (ActionFields.read levels) a.members a := by
  obtain ⟨⟩ := a
  simp only at hgain
  subst hgain
  refine takes_value ?_
  repeat refine takes_option ?_
  -- the gain that is not there
  refine Takes.bind (takes_field rfl) ?_
  repeat refine takes_option ?_
  exact Takes.pure

namespace Action

mutual

/-- Whether an action and the actions inside it set no gain. -/
def gainless : Action → Bool
  | .mk fields thenDo elseDo onComplete => fields.gain.isNone && listGainless thenDo &&
      listGainless elseDo && listGainless onComplete

/-- Whether the actions of a list and the actions inside them set no gain. -/
def listGainless : List Action → Bool
  | [] => true
  | action :: rest => gainless action && listGainless rest

end

/-- The lists inside an action are read with what the action leaves of the levels. -/
theorem takes_body {fields : ActionFields} {thenDo elseDo onComplete : List Action}
    {inner : Decoder Action} {levels : Nat} (hgain : fields.gain = none)
    (hinner : ∀ actions ∈ [thenDo, elseDo, onComplete],
      list inner levels (.array (listToJson actions)) =
        if (Json.array (listToJson actions)).depth ≤ levels then some actions else none) :
    Takes levels (decode.body inner levels) (fields.members ++ [
      ("do", .array (listToJson thenDo)), ("elseDo", .array (listToJson elseDo)),
      ("onComplete", .array (listToJson onComplete))]) (.mk fields thenDo elseDo onComplete) := by
  simp only [List.forall_mem_cons] at hinner
  obtain ⟨hthen, helse, hcomplete, -⟩ := hinner
  refine Takes.bind (fields.takes_members hgain levels) ?_
  exact Takes.bind (takes_field hthen) <| Takes.bind (takes_field helse) <|
    Takes.bind (takes_field hcomplete) Takes.pure

/-- An action is recovered if the lists inside it are. -/
theorem record_body {fields : ActionFields} {thenDo elseDo onComplete : List Action}
    {inner : Decoder Action} {n : Nat} (hgain : fields.gain = none)
    (hinner : ∀ actions ∈ [thenDo, elseDo, onComplete],
      list inner n (.array (listToJson actions)) =
        if (Json.array (listToJson actions)).depth ≤ n then some actions else none) :
    record (decode.body inner) (n + 1) (toJson (.mk fields thenDo elseDo onComplete)) =
      if (toJson (.mk fields thenDo elseDo onComplete)).depth ≤ n + 1
        then some (.mk fields thenDo elseDo onComplete) else none :=
  record_object <| takes_body hgain hinner (by simp [ActionFields.members])
    (List.Subset.refl _)

mutual

/-- An action that sets no gain is recovered from what it is shown as. -/
theorem recovers_toJson : ∀ (action : Action) (levels : Nat), action.gainless = true →
    decode levels action.toJson = if action.toJson.depth ≤ levels then some action else none
  | .mk fields thenDo elseDo onComplete, levels, hgain => by
      simp only [gainless, Bool.and_eq_true, Option.isNone_iff_eq_none] at hgain
      obtain ⟨⟨⟨hfields, hthen⟩, helse⟩, hcomplete⟩ := hgain
      match levels with
      | 0 => rfl
      | 1 => exact record_body hfields fun _ _ => rfl
      | levels + 2 =>
          refine record_body hfields ?_
          simp only [List.forall_mem_cons, list, Json.depth, Nat.add_le_add_iff_right]
          exact ⟨recovers_listToJson thenDo levels hthen, recovers_listToJson elseDo levels helse,
            recovers_listToJson onComplete levels hcomplete, fun _ h => nomatch h⟩

/-- The actions of a list that set no gain are recovered from what they are shown as. -/
theorem recovers_listToJson : ∀ (actions : List Action) (levels : Nat),
    listGainless actions = true → (listToJson actions).mapM (decode levels) =
      if Json.depthOfItems (listToJson actions) ≤ levels then some actions else none
  | [], _, _ => rfl
  | action :: rest, levels, hgain => by
      simp only [listGainless, Bool.and_eq_true] at hgain
      rw [listToJson, List.mapM_cons, recovers_toJson action levels hgain.1,
        recovers_listToJson rest levels hgain.2]
      exact check_cons Nat.max_le

end

theorem listToJson_eq_map (actions : List Action) : listToJson actions = actions.map toJson := by
  induction actions with
  | nil => rfl
  | cons action rest ih => rw [listToJson, ih, List.map_cons]

end Action

namespace Event

/-- Whether no action of an event sets a gain. -/
def gainless (e : Event) : Bool := Action.listGainless e.actions

/-- An event that sets no gain is recovered from what it is shown as. -/
theorem recovers_toJson {e : Event} (hgain : e.gainless = true) :
    Recovers decode (ToJson.toJson e) e := by
  have hactions (levels : Nat) : list Action.decode levels (ToJson.toJson e.actions) =
      if (ToJson.toJson e.actions).depth ≤ levels then some e.actions else none := by
    have hshown : ToJson.toJson e.actions = .array (Action.listToJson e.actions) :=
      congrArg Json.array (Action.listToJson_eq_map e.actions).symm
    cases levels with
    | zero => rfl
    | succ n =>
        simp only [hshown, list, Json.depth, Nat.add_le_add_iff_right]
        exact Action.recovers_listToJson e.actions n hgain
  refine recovers_record (by simp) fun levels => ?_
  iterate 3 refine takes_value ?_
  refine Takes.bind (takes_field (hactions levels)) ?_
  exact takes_value Takes.pure

end Event

end Authored

/-! ## Whole documents -/

section Depth

variable {α : Type} [ToJson α] {n : Nat}

theorem depth_option_le (h : ∀ a : α, (toJson a).depth ≤ n) (o : Option α) :
    (toJson o).depth ≤ n := by
  cases o with
  | none => exact Nat.zero_le n
  | some a => exact h a

theorem depth_list_le (h : ∀ a : α, (toJson a).depth ≤ n) (values : List α) :
    (toJson values).depth ≤ n + 1 :=
  Nat.succ_le_succ <| Json.depthOfItems_le.2 <| List.forall_mem_map.2 fun a _ => h a

end Depth

theorem IdSet.ListedAs.depth_le {ids : IdSet} {j : Json} (h : ids.ListedAs j) : j.depth ≤ 1 := by
  obtain ⟨listed, -, rfl⟩ := h
  exact depth_list_le (fun _ => Nat.le_refl 0) listed

theorem IdMap.ListedAs.depth_le {β : Type} {written : β → Json → Prop} {n : Nat}
    (hwritten : ∀ {b : β} {j : Json}, written b j → j.depth ≤ n) {m : IdMap β} {j : Json}
    (h : m.ListedAs written j) : j.depth ≤ n + 1 := by
  obtain ⟨listed, -, hlisted, rfl⟩ := h
  exact Nat.succ_le_succ <| Json.depthOfMembers_le.2 <|
    List.forall_mem_map.2 fun x hx => hwritten (hlisted x hx)

theorem Reward.depth_le (r : Reward) : (toJson r).depth ≤ 3 := by
  have hint (i : Int64) : (toJson i).depth ≤ 2 := Nat.zero_le 2
  have hitems : (toJson r.items).depth ≤ 2 := depth_list_le (fun _ => Nat.le_refl 1) _
  refine Nat.succ_le_succ (Json.depthOfMembers_le.2 ?_)
  simp [hint, hitems]

theorem SessionState.WrittenAs.depth_le {s : SessionState} {j : Json} (h : s.WrittenAs j) :
    j.depth ≤ 3 := by
  obtain ⟨hactive, hcompleted, hfailed, hstages, htasks, hmilestones, htutorials, hinventory,
    hevents⟩ := h
  have hids : ∀ {ids : IdSet} {j : Json}, ids.ListedAs j → j.depth ≤ 2 :=
    fun h => Nat.le_succ_of_le h.depth_le
  have htext : ∀ {stage : String} {j : Json}, j = toJson stage → j.depth ≤ 1 := by
    rintro stage _ rfl
    exact Nat.zero_le 1
  have hquantity : ∀ {n : UInt32} {j : Json}, j = toJson n → j.depth ≤ 1 := by
    rintro n _ rfl
    exact Nat.zero_le 1
  have hroom : (toJson s.currentRoom).depth ≤ 2 := depth_option_le (fun _ => Nat.zero_le 2) _
  refine Nat.succ_le_succ (Json.depthOfMembers_le.2 ?_)
  simp [hids hactive, hids hcompleted, hids hfailed, hids hmilestones, hids htutorials,
    hids hevents, hstages.depth_le htext, htasks.depth_le IdSet.ListedAs.depth_le,
    hinventory.depth_le hquantity, hroom]

theorem Payload.depth_le (p : Payload) : (toJson p).depth ≤ 2 := by
  have htext (text : String) : (toJson text).depth ≤ 1 := Nat.zero_le 1
  have hquantity (q : UInt32) : (toJson q).depth ≤ 1 := Nat.zero_le 1
  have hids (ids : List String) : (toJson ids).depth ≤ 1 := depth_list_le (fun _ => Nat.le_refl 0) _
  have hoption (text : Option String) : (toJson text).depth ≤ 1 := depth_option_le htext _
  refine Nat.succ_le_succ (Json.depthOfMembers_le.2 ?_)
  cases p <;> simp [htext, hquantity, hids, hoption]

/-- A value whose document the limit of the reader admits is read back from it. -/
theorem document_toJson {α : Type} {read : Decoder α} {j : Json} {a : α}
    (hread : Recovers read j a) (hdepth : j.depth ≤ Json.maxLevels) :
    document read j = some a := by
  rw [document, hread, if_pos hdepth]

/-- **Reading undoes writing.** An authored event that sets no gain is what is read from the
document that shows it, if this nests no deeper than the reader goes, and the event that is read
compiles to the same event; a document that nests deeper is refused. Every payload, tagged by its
kind, and every reward is what is read from the document that shows it. A session state is read
from every document that it may be written as, since its sets and maps may be listed in any
order. -/
theorem reading_undoes_writing :
    (∀ e : Authored.Event, e.gainless = true →
      ((toJson e).depth ≤ Json.maxLevels →
        document Authored.Event.decode (toJson e) = some e ∧
        (document Authored.Event.decode (toJson e)).map Event.ofAuthored =
          some (Event.ofAuthored e)) ∧
      (Json.maxLevels < (toJson e).depth →
        document Authored.Event.decode (toJson e) = none)) ∧
    (∀ p : Payload, (toJson p).member? "kind" = some (.string p.kind) ∧
      document Payload.decode (toJson p) = some p) ∧
    (∀ r : Reward, document Reward.decode (toJson r) = some r) ∧
    ∀ s : SessionState, s.WrittenAs (toJson s) ∧
      ∀ j, s.WrittenAs j → document SessionState.decode j = some s := by
  refine ⟨fun e hgain => ⟨fun hdepth => ?_, fun hdeep => ?_⟩, fun p => ⟨?_, ?_⟩, fun r => ?_,
    fun s => ⟨s.writtenAs_toJson, fun j hj => ?_⟩⟩
  · have hread := document_toJson (Authored.Event.recovers_toJson hgain) hdepth
    exact ⟨hread, by rw [hread, Option.map_some]⟩
  · rw [document, Authored.Event.recovers_toJson hgain, if_neg (Nat.not_le.2 hdeep)]
  · cases p <;> rfl
  · exact document_toJson (recovers p) (Nat.le_trans p.depth_le (by decide))
  · exact document_toJson (recovers r) (Nat.le_trans r.depth_le (by decide))
  · exact document_toJson (SessionState.recovers_decode hj) (Nat.le_trans hj.depth_le (by decide))

/-- A festival that branches on a milestone; what follows its scene hands out a reward. -/
def festival : Authored.Event where
  id := "festival"
  trigger := { type := "enter_room", roomId := some "square", enemies := ["crow"] }
  conditions := [{ type := "has_item", itemId := some "lantern", quantity := some 2 }]
  actions := [
    .mk { type := "if_milestone", milestone := some "dusk" }
      [.mk { type := "play_cinematic", sceneId := some "parade" } [] []
        [.mk { type := "give_reward", reward := some { xp := 5, items := [⟨"ribbon", 1⟩] } }
          [] [] []]]
      [.mk { type := "show_message", text := some "The square is empty." } [] [] []] []]

/-- Branches inside one another, as many as there are steps, with an action at the top. -/
def stairs : Nat → Authored.Action
  | 0 => .mk { type := "set_milestone", milestone := some "top" } [] [] []
  | n + 1 => .mk { type := "if_milestone", milestone := some "dusk" } [stairs n] [] []

theorem depth_stairs (n : Nat) : (stairs n).toJson.depth = 2 * n + 2 := by
  induction n with
  | zero => rfl
  | succ n ih =>
      have hflat : Json.depthOfMembers
          { type := "if_milestone", milestone := some "dusk" : Authored.ActionFields }.members = 0 :=
        rfl
      simp only [stairs, Authored.Action.toJson, Authored.Action.listToJson, Json.depth,
        Json.depthOfMembers_append, Json.depthOfMembers, Json.depthOfItems, hflat, ih]
      omega

/-- A game in which the festival has begun. -/
def festivalSave : SessionState where
  questStages := IdMap.ofList [("lights", "hang"), ("music", "tune")]
  milestones := IdSet.ofIds ["dawn", "dusk"]
  currentRoom := some "square"

/-- A document that lists what is known of the game from the end. -/
def festivalDocument : Json := .object [
  ("active_quests", .array []), ("completed_quests", .array []), ("failed_quests", .array []),
  ("quest_stages", .object [("music", .string "tune"), ("lights", .string "hang")]),
  ("completed_tasks", .object []), ("milestones", .array [.string "dusk", .string "dawn"]),
  ("tutorials", .array []), ("inventory", .object []), ("completed_events", .array []),
  ("current_room", .string "square")]

/-- The nested actions of the festival are read back, and so is the game from a document that lists
its sets in another order. Actions may be nested in sixty-one others, but not in one more. -/
theorem festival_read_back :
    let tall (n : Nat) : Authored.Event := { id := "stairs", actions := [stairs n] }
    (festival.gainless = true ∧ (toJson festival).depth ≤ Json.maxLevels ∧
      document Authored.Event.decode (toJson festival) = some festival) ∧
    document Authored.Event.decode (toJson (tall 61)) = some (tall 61) ∧
    document Authored.Event.decode (toJson (tall 62)) = none ∧
    festivalSave.WrittenAs festivalDocument ∧
      document SessionState.decode festivalDocument = some festivalSave := by
  intro tall
  have htall (n : Nat) : (toJson (tall n)).depth = 2 * n + 4 := by
    show max 0 (max 2 (max 1 (max (max (stairs n).toJson.depth 0 + 1) 0))) + 1 = 2 * n + 4
    rw [depth_stairs]
    omega
  have hgain : festival.gainless = true := by decide
  have hdepth : (toJson festival).depth ≤ Json.maxLevels := by decide +kernel
  have hgain' : ∀ n, n = 61 ∨ n = 62 → (tall n).gainless = true := by
    rintro n (rfl | rfl) <;> decide +kernel
  have hempty : (∅ : IdSet).ListedAs (.array []) := ⟨[], .nil, rfl⟩
  have hmilestones : festivalSave.milestones.ListedAs (.array [.string "dusk", .string "dawn"]) :=
    ⟨["dusk", "dawn"], by decide +kernel, rfl⟩
  have hstages : festivalSave.questStages.ListedAs (fun stage j => j = toJson stage)
      (.object [("music", .string "tune"), ("lights", .string "hang")]) :=
    ⟨[("music", "tune", .string "tune"), ("lights", "hang", .string "hang")], by decide +kernel,
      by simp [toJson], rfl⟩
  have hwritten : festivalSave.WrittenAs festivalDocument :=
    .intro hempty hempty hempty hstages ⟨[], .nil, by simp, rfl⟩ hmilestones hempty
      ⟨[], .nil, by simp, rfl⟩ hempty
  obtain ⟨hevents, -, -, hstates⟩ := reading_undoes_writing
  refine ⟨⟨hgain, hdepth, ((hevents festival hgain).1 hdepth).1⟩, ?_, ?_, hwritten,
    (hstates festivalSave).2 _ hwritten⟩
  · refine ((hevents (tall 61) (hgain' 61 (.inl rfl))).1 ?_).1
    rw [htall]
    decide
  · refine (hevents (tall 62) (hgain' 62 (.inr rfl))).2 ?_
    rw [htall]
    decide

end Narrative
