import Narrative.Proofs.Upkeep
import Narrative.Proofs.Completion

set_option autoImplicit false

/-!
# Quests in progress

To complete a quest or to fail it takes it out of the quests in progress. To start one does not look
at those that are over, so a quest that is started again is at once in progress and over. Nothing else
puts a quest into two of the sets: a run over a session keeps those in progress apart from those that
are over exactly if no quest is started that is over by then
(`quests_stay_apart_iff_none_starts_again`).
-/

namespace Narrative

namespace SessionState

/-- Whether a quest was completed or failed. -/
def questOver (s : SessionState) (quest : String) : Bool :=
  s.completedQuests.contains quest || s.failedQuests.contains quest

/-- No quest is in progress and over. -/
def QuestsApart (s : SessionState) : Prop :=
  ∀ quest, s.activeQuests.contains quest = true → s.questOver quest = false

/-- The quests in progress, those that were completed and those that were failed. -/
def quests (s : SessionState) : IdSet × IdSet × IdSet :=
  (s.activeQuests, s.completedQuests, s.failedQuests)

variable {s s' : SessionState}

/-- Whether the quests are kept apart can be told from the three sets. -/
theorem questsApart_congr (h : s'.quests = s.quests) : s'.QuestsApart ↔ s.QuestsApart := by
  simp only [quests, Prod.mk.injEq] at h
  simp only [QuestsApart, questOver, h]

/-- What ends a quest takes it out of those in progress, so it may count as over. -/
theorem QuestsApart.ended (h : s.QuestsApart) (quest : String)
    (hactive : s'.activeQuests = s.activeQuests.erase quest)
    (hover : ∀ other, other ≠ quest → s'.questOver other = s.questOver other) :
    s'.QuestsApart := by
  intro other hother
  rw [hactive, IdMap.contains_erase, Bool.and_eq_true, bne_iff_ne] at hother
  rw [hover other hother.1]
  exact h other hother.2

end SessionState

/-- The quest that an effect starts. -/
def Effect.started? : Effect → Option String
  | .startQuest quest => some quest
  | _ => none

namespace Game

variable {g : Game}

/-- An effect that starts a quest which is over. -/
def StartsAgain (g : Game) (x : Effect) : Prop :=
  ∃ quest ∈ x.started?, g.state.questOver quest = true

instance (g : Game) (x : Effect) : Decidable (g.StartsAgain x) :=
  inferInstanceAs (Decidable (∃ quest ∈ x.started?, g.state.questOver quest = true))

theorem startsAgain_startQuest {quest : String} :
    g.StartsAgain (.startQuest quest) ↔ g.state.questOver quest = true := by
  simp [StartsAgain, Effect.started?]

theorem not_startsAgain {x : Effect} (hx : x.started? = none) : ¬g.StartsAgain x := by
  rintro ⟨quest, hquest, -⟩
  rw [hx] at hquest
  cases hquest

/-- To start a quest puts it in progress, over or not. -/
theorem questsApart_startQuest (h : g.state.QuestsApart) (quest : String) :
    (g.apply (.startQuest quest)).state.QuestsApart ↔ g.state.questOver quest = false := by
  have hstarted (other : String) : (g.state.activeQuests.add quest).contains other = true ↔
      other = quest ∨ g.state.activeQuests.contains other = true := by
    rw [IdSet.contains_add, Bool.or_eq_true, beq_iff_eq]
  constructor
  · exact fun hafter => hafter quest ((hstarted quest).2 (.inl rfl))
  · intro hfirst other hother
    rcases (hstarted other).1 hother with rfl | hbefore
    · exact hfirst
    · exact h other hbefore

theorem questsApart_completeQuest (h : g.state.QuestsApart) (quest : String) :
    (g.apply (.completeQuest quest)).state.QuestsApart := by
  refine h.ended quest rfl fun other hne => ?_
  simp [SessionState.questOver, apply, updateState, beq_false_of_ne hne]

theorem questsApart_failQuest (h : g.state.QuestsApart) (quest reason : String) :
    (g.apply (.failQuest quest reason)).state.QuestsApart := by
  have hfailed : (g.apply (.failQuest quest reason)).state = { g.state with
      activeQuests := g.state.activeQuests.erase quest
      failedQuests := g.state.failedQuests.add quest } := by
    simp only [apply]
    split <;> rfl
  rw [hfailed]
  refine h.ended quest rfl fun other hne => ?_
  simp [SessionState.questOver, beq_false_of_ne hne]

/-- Items that come in have nothing to do with quests. -/
theorem quests_grant (r : Reward) : (g.grant r).state.quests = g.state.quests := by
  obtain ⟨inventory, hgrant⟩ := g.exists_grant r
  rw [hgrant]
  rfl

/-- **Only to start a quest again breaks the order of the quests.** -/
theorem questsApart_apply (h : g.state.QuestsApart) (x : Effect) :
    (g.apply x).state.QuestsApart ↔ ¬g.StartsAgain x := by
  -- whatever leaves the three sets alone keeps the quests apart
  have hsame (hx : x.started? = none) (hquests : (g.apply x).state.quests = g.state.quests) :
      (g.apply x).state.QuestsApart ↔ ¬g.StartsAgain x :=
    iff_of_true ((SessionState.questsApart_congr hquests).2 h) (not_startsAgain hx)
  cases x with
  | startQuest quest =>
      rw [questsApart_startQuest h, startsAgain_startQuest, Bool.not_eq_true]
  | completeQuest quest =>
      exact iff_of_true (questsApart_completeQuest h quest) (not_startsAgain rfl)
  | failQuest quest reason =>
      exact iff_of_true (questsApart_failQuest h quest reason) (not_startsAgain rfl)
  | grantReward r => exact hsame rfl (quests_grant r)
  | takeItem item n =>
      refine hsame rfl ?_
      simp only [apply]
      split <;> rfl
  | advanceQuestStage quest stage =>
      refine hsame rfl ?_
      cases quest <;> cases stage <;> rfl
  | updateQuestTask quest task =>
      refine hsame rfl ?_
      cases quest <;> cases task <;> rfl
  | _ => exact hsame rfl rfl

/-- What a session does to its game keeps the quests apart, unless one is started again. -/
theorem questsApart_upkeep : Upkeep (·.state.QuestsApart) StartsAgain where
  apply := questsApart_apply
  marked _ _ := SessionState.questsApart_congr rfl
  seen tutorial _ := by cases tutorial <;> exact SessionState.questsApart_congr rfl
  entered _ _ := SessionState.questsApart_congr rfl

end Game

/-- **Quests are kept apart unless one is started again.** If at some time no quest is in progress
that was completed or failed, this holds at every moment of a run over a session that follows, and at
its end, exactly if every quest that is started is neither completed nor failed at that moment. The
run may consist of all moves but to load another state. -/
theorem quests_stay_apart_iff_none_starts_again {p : Play}
    (hsession : ∃ screen, p.wiring.receiver = .session screen)
    (hapart : p.world.game.state.QuestsApart) {moves : List Move}
    (hmoves : ∀ m ∈ moves, m.KeepsBooks) :
    ∃ new, (p.run moves).world.trace = new ++ p.world.trace ∧
      (((∀ m ∈ new, m.game.state.QuestsApart) ∧ (p.run moves).world.game.state.QuestsApart) ↔
        ∀ m ∈ new, ∀ x ∈ m.happening.effect?, ¬m.game.StartsAgain x) :=
  Game.questsApart_upkeep.run hsession hapart hmoves

/-- A quest is started and ended, one way or the other. -/
def errand (quest : String) (ending : Authored.ActionFields) : Move :=
  .perform (Action.ofAuthoredList
    [.mk { type := "start_quest", questId := some quest } [] [] [], .mk ending [] [] []])

/-- Two quests are started and ended once each, and are kept apart. -/
theorem errands_are_run_once :
    let p := Play.start ∅ {} ⟨.session .park, true⟩ {}
    let moves := [errand "parcel" { type := "complete_quest", questId := some "parcel" },
      errand "letter" { type := "fail_quest", questId := some "letter", reason := some "lost" }]
    p.world.game.state.QuestsApart ∧ (∀ m ∈ moves, m.KeepsBooks) ∧
      (p.run moves).world.game.state.completedQuests.contains "parcel" = true ∧
      (p.run moves).world.game.state.failedQuests.contains "letter" = true ∧
      (p.run moves).world.game.state.QuestsApart := by
  intro p moves
  have hapart : p.world.game.state.QuestsApart := fun _ h => Bool.noConfusion h
  have hmoves : ∀ m ∈ moves, m.KeepsBooks := by simp [moves, errand, Move.KeepsBooks]
  refine ⟨hapart, hmoves, by decide +kernel, by decide +kernel, ?_⟩
  obtain ⟨new, hnew, hkept⟩ :=
    @quests_stay_apart_iff_none_starts_again p ⟨.park, rfl⟩ hapart moves hmoves
  have htrace : new = (p.run moves).world.trace := by
    rw [hnew]
    exact (List.append_nil new).symm
  subst htrace
  exact (hkept.2 (by decide +kernel)).2

/-- A quest that is started once more after it was completed is in progress and over. -/
theorem parcel_is_under_way_again :
    let p := Play.start ∅ {} ⟨.session .park, true⟩ {}
    let done := errand "parcel" { type := "complete_quest", questId := some "parcel" }
    let again := errand "parcel" {}
    let s := (p.run [done, again]).world.game.state
    p.world.game.state.QuestsApart ∧ s.activeQuests.contains "parcel" = true ∧
      s.completedQuests.contains "parcel" = true :=
  ⟨fun _ h => Bool.noConfusion h, by decide +kernel, by decide +kernel⟩

end Narrative
