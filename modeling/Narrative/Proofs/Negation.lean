import Narrative.Proofs.Branching

set_option autoImplicit false

/-!
# Negated conditions

Seven kinds of condition come in two forms, a positive one and a negated one, and each form is
evaluated on its own. Whatever the fields, blank or missing ones included, and whatever the state,
just one of the two holds (`Condition.Negates.evaluate`). So a conditional action on the negated form
with its two lists exchanged is the same action (`Action.run_negated`): nothing else of a test is
ever seen, since both forms are known and no policy is asked.
-/

namespace Narrative

namespace Condition

/-- The type keys of the conditions that come in two forms: those of the positive form before those
of the negated one. -/
def forms : List (List String × List String) := [
  (["milestone_set", "milestone", "has_milestone"], ["milestone_not_set"]),
  (["quest_completed"], ["quest_not_completed"]),
  (["quest_stage", "quest_stage_equals"], ["quest_stage_not", "quest_stage_not_equals"]),
  (["quest_task_done", "quest_task_complete"], ["quest_task_not_done"]),
  (["event_completed"], ["event_not_completed"]),
  (["tutorial_completed", "tutorial_seen"], ["tutorial_not_completed"]),
  (["item", "has_item"], ["item_not", "missing_item"])]

/-- Two conditions of which the second is the negated form of the first. -/
inductive Negates : Condition → Condition → Prop where
  | milestone (milestone : String) : Negates (.milestoneSet milestone) (.milestoneNotSet milestone)
  | quest (quest : String) : Negates (.questCompleted quest) (.questNotCompleted quest)
  | stage (quest stage : String) : Negates (.questStage quest stage) (.questStageNot quest stage)
  | task (quest task : String) : Negates (.questTaskDone quest task) (.questTaskNotDone quest task)
  | event (event : String) : Negates (.eventCompleted event) (.eventNotCompleted event)
  | tutorial (tutorial : String) :
      Negates (.tutorialCompleted tutorial) (.tutorialNotCompleted tutorial)
  | item (item : String) (quantity : UInt32) :
      Negates (.hasItem item quantity) (.lacksItem item quantity)

variable {positive negated : Condition}

/-- **Just one form holds**, in every state. -/
theorem Negates.evaluate (h : Negates positive negated) (s : SessionState) :
    ∃ truth, positive.evaluate s = some truth ∧ negated.evaluate s = some !truth := by
  cases h with
  | item item quantity =>
      refine ⟨_, rfl, ?_⟩
      -- a quantity falls short of another or reaches it
      simp only [Condition.evaluate, ← UInt32.not_le, decide_not]
  | _ => exact ⟨_, rfl, rfl⟩

/-- So it does under every policy. -/
theorem Negates.holds (h : Negates positive negated) (policy : UnknownPolicy) (s : SessionState) :
    negated.holds policy s = !positive.holds policy s := by
  obtain ⟨truth, hpositive, hnegated⟩ := h.evaluate s
  rw [Condition.holds, Condition.holds, hpositive, hnegated, Option.getD_some, Option.getD_some]

theorem Negates.isKnown (h : Negates positive negated) : positive.IsKnown ∧ negated.IsKnown := by
  cases h <;> exact ⟨nofun, nofun⟩

/-- The fields of a record are read alike for both forms. -/
theorem negates_of_forms {positives negateds : List String} {p n : String}
    (hforms : (positives, negateds) ∈ forms) (hp : p ∈ positives) (hn : n ∈ negateds)
    (c : Authored.Condition) :
    ∃ positive negated, known? p c = some positive ∧ known? n c = some negated ∧
      Negates positive negated := by
  simp only [forms, List.mem_cons, Prod.mk.injEq, List.not_mem_nil, or_false] at hforms
  rcases hforms with ⟨rfl, rfl⟩ | ⟨rfl, rfl⟩ | ⟨rfl, rfl⟩ | ⟨rfl, rfl⟩ | ⟨rfl, rfl⟩ | ⟨rfl, rfl⟩ |
    ⟨rfl, rfl⟩
  all_goals simp only [List.mem_cons, List.not_mem_nil, or_false] at hp hn
  · subst hn
    rcases hp with rfl | rfl | rfl <;> exact ⟨_, _, rfl, rfl, .milestone _⟩
  · subst hp hn
    exact ⟨_, _, rfl, rfl, .quest _⟩
  · rcases hp with rfl | rfl <;> rcases hn with rfl | rfl <;> exact ⟨_, _, rfl, rfl, .stage _ _⟩
  · subst hn
    rcases hp with rfl | rfl <;> exact ⟨_, _, rfl, rfl, .task _ _⟩
  · subst hp hn
    exact ⟨_, _, rfl, rfl, .event _⟩
  · subst hn
    rcases hp with rfl | rfl <;> exact ⟨_, _, rfl, rfl, .tutorial _⟩
  · rcases hp with rfl | rfl <;> rcases hn with rfl | rfl <;> exact ⟨_, _, rfl, rfl, .item _ _⟩

/-- A condition of a known type is compiled to what its fields say. -/
theorem ofAuthored_retyped {key type : String} {c : Authored.Condition} {test : Condition}
    (htype : Text.typeKey type = key) (htest : known? key c = some test) :
    ofAuthored { c with type } = test := by
  simp only [ofAuthored, htype, known?_retyped, htest, Option.getD_some]

end Condition

/-- Nothing is counted when known conditions are tested. -/
theorem Engine.conditionsHold_known (e : Engine) {cs : List Condition} (h : ∀ c ∈ cs, c.IsKnown)
    (s : SessionState) (w : World) : (e.conditionsHold cs s w).2 = w := by
  simp only [conditionsHold, Condition.unknownsMet_eq_zero h]
  rfl

namespace Action

variable {positive negated : Condition}

/-- **A branch on the negated form** with its lists exchanged is the same branch. -/
theorem run_negated (h : Condition.Negates positive negated) (thenDo elseDo : List Action)
    (e : Engine) (wiring : Wiring) (reach : Reach) (s : SessionState) (w : World) :
    run e wiring reach (.branch negated elseDo thenDo) s w =
      run e wiring reach (.branch positive thenDo elseDo) s w := by
  obtain ⟨hpositive, hnegated⟩ := h.isKnown
  rw [run_branch, run_branch, h.holds,
    e.conditionsHold_known (List.forall_mem_singleton.2 hpositive),
    e.conditionsHold_known (List.forall_mem_singleton.2 hnegated)]
  cases positive.holds e.config.dispatch.unknownConditions s with
  | true => rfl
  | false => rfl

/-- A conditional action tests what its fields say, apart from the types. -/
theorem ofAuthored_if_retyped {key type type' : String} {a : Authored.ActionFields}
    {test : Condition} (htype : Text.typeKey type = "if_" ++ key)
    (htest : Condition.known? key (a.asCondition type') = some test)
    (thenDo elseDo onComplete : List Authored.Action) :
    ofAuthored (.mk { a with type } thenDo elseDo onComplete) =
      .branch test (ofAuthoredList thenDo) (ofAuthoredList elseDo) := by
  have hkey : Text.typeKey ({ a with type } : Authored.ActionFields).type = "if_" ++ key := htype
  have hrecord : ({ a with type } : Authored.ActionFields).asCondition key =
      { a.asCondition type' with type := key } := rfl
  refine ofAuthored_if hkey ?_ thenDo elseDo onComplete
  rw [hrecord, Condition.known?_retyped, htest]

end Action

/-- **Negated conditions are complements.** Take the two forms of a condition, by any of their
types and in any spelling, with the same fields. In every state just one of them holds; and a
conditional action on the negated form with its two lists exchanged gives the same answer and comes
to the same world, with the same calls of the game in it, as the one on the positive form, whatever
the lists, the engine, its receiver and the state. -/
theorem negated_conditions_complement {positives negateds : List String} {p n : String}
    (hforms : (positives, negateds) ∈ Condition.forms) (hp : p ∈ positives) (hn : n ∈ negateds) :
    (∀ (type type' : String) (c : Authored.Condition) (s : SessionState),
      Text.typeKey type = p → Text.typeKey type' = n →
      ∃ truth, (Condition.ofAuthored { c with type }).evaluate s = some truth ∧
        (Condition.ofAuthored { c with type := type' }).evaluate s = some !truth) ∧
    ∀ (type type' : String) (a : Authored.ActionFields)
      (thenDo elseDo onComplete onComplete' : List Authored.Action),
      Text.typeKey type = "if_" ++ p → Text.typeKey type' = "if_" ++ n →
      ∀ (e : Engine) (wiring : Wiring) (reach : Reach) (s : SessionState) (w : World),
        Action.run e wiring reach
            (.ofAuthored (.mk { a with type := type' } elseDo thenDo onComplete')) s w =
          Action.run e wiring reach
            (.ofAuthored (.mk { a with type } thenDo elseDo onComplete)) s w := by
  refine ⟨fun type type' c s htype htype' => ?_, ?_⟩
  · obtain ⟨positive, negated, hpositive, hnegated, hnegates⟩ :=
      Condition.negates_of_forms hforms hp hn c
    rw [Condition.ofAuthored_retyped htype hpositive, Condition.ofAuthored_retyped htype' hnegated]
    exact hnegates.evaluate s
  · intro type type' a thenDo elseDo onComplete onComplete' htype htype' e wiring reach s w
    obtain ⟨positive, negated, hpositive, hnegated, hnegates⟩ :=
      Condition.negates_of_forms hforms hp hn (a.asCondition a.type)
    rw [Action.ofAuthored_if_retyped htype hpositive, Action.ofAuthored_if_retyped htype' hnegated]
    exact Action.run_negated hnegates _ _ e wiring reach s w

/-- A look for an item that has no name. -/
def vagueLook : Authored.ActionFields := { item := some " ", quantity := some 0 }

/-- A message. -/
def grumble : List Authored.Action := [.mk { type := "show_message", text := some "Gone!" } [] [] []]

/-- Nobody holds an item without a name, so it is missing. -/
theorem nameless_item_is_missing :
    (Condition.ofAuthored { vagueLook.asCondition "" with type := "Item_Not " }).evaluate {} =
        some true ∧
      let reach := ({} : Engine).outlets ⟨.session .park, true⟩
      Action.run {} ⟨.session .park, true⟩ reach
          (.ofAuthored (.mk { vagueLook with type := "If_Item_Not" } grumble [] [])) {} {} =
        Action.run {} ⟨.session .park, true⟩ reach
          (.ofAuthored (.mk { vagueLook with type := "if_item" } [] grumble [])) {} {} := by
  obtain ⟨hcondition, haction⟩ :=
    @negated_conditions_complement ["item", "has_item"] ["item_not", "missing_item"] "item"
      "item_not" (by decide) (by decide) (by decide)
  have htype : Text.typeKey "item" = "item" := by decide +kernel
  have htype' : Text.typeKey "Item_Not " = "item_not" := by decide +kernel
  obtain ⟨truth, hpositive, hnegated⟩ :=
    hcondition "item" "Item_Not " (vagueLook.asCondition "") {} htype htype'
  have hfalse : (Condition.ofAuthored { vagueLook.asCondition "" with type := "item" }).evaluate {} =
      some false := by decide +kernel
  obtain rfl : truth = false := Option.some.inj (hpositive.symm.trans hfalse)
  have hif : Text.typeKey "if_item" = "if_" ++ "item" := by decide +kernel
  have hif' : Text.typeKey "If_Item_Not" = "if_" ++ "item_not" := by decide +kernel
  exact ⟨hnegated, haction "if_item" "If_Item_Not" vagueLook [] grumble [] [] hif hif' _ _ _ _ _⟩

end Narrative
