import Narrative.Proofs.Bookkeeping
import Narrative.Proofs.Completion

set_option autoImplicit false

/-!
# What was achieved stays achieved

Milestones, quests that are over, tasks that are done, tutorials that were seen, events that have fired
and rooms that may be searched are added by a session and never taken away, and a party member who
has joined stays. So the games of a run over a session grow: each of them, at whatever moment it is
looked at, has what every earlier one had (`Game.GrowsInto`). A condition that asks for something
achieved is true for good once it is true (`achievements_are_permanent`).
-/

namespace Narrative

/-! ## Sets that grow -/

/-- Every id of one set is in another. -/
instance : HasSubset IdSet := ⟨fun s t => ∀ id, s.contains id = true → t.contains id = true⟩

namespace IdSet

variable {s t u : IdSet}

theorem subset_refl (s : IdSet) : s ⊆ s := fun _ h => h

theorem subset_trans (h : s ⊆ t) (h' : t ⊆ u) : s ⊆ u := fun id hid => h' id (h id hid)

theorem subset_add (s : IdSet) (id : String) : s ⊆ s.add id := by
  intro other hother
  rw [contains_add, hother, Bool.or_true]

end IdSet

namespace SessionState

variable {s : SessionState}

/-- The tasks of a quest that are done. -/
def tasksDone (s : SessionState) (quest : String) : IdSet := (s.completedTasks.get? quest).getD ∅

theorem taskDone_eq (s : SessionState) (quest task : String) :
    s.taskDone quest task = (s.tasksDone quest).contains task := by
  rw [taskDone, tasksDone]
  cases s.completedTasks.get? quest <;> rfl

/-- One more task of a quest is done, and those of the other quests stay as they are. -/
theorem tasksDone_insert (quest task other : String) :
    s.tasksDone other ⊆ { s with
      completedTasks := s.completedTasks.insert quest ((s.tasksDone quest).add task) }.tasksDone
        other := by
  rw [tasksDone, tasksDone, IdMap.get?_insert]
  split
  · next h =>
      subst h
      exact IdSet.subset_add _ task
  · exact IdSet.subset_refl _

end SessionState

/-- No two members of the party are the same up to case. -/
def Progress.PartyDistinct (p : Progress) : Prop :=
  p.party.Pairwise fun a b => Text.sameId a b = false

/-- A party without the new member is still distinct when the member has joined. -/
theorem Progress.PartyDistinct.join {p : Progress} (h : p.PartyDistinct) {member : String}
    (hnew : ¬p.party.any (Text.sameId · member) = true) :
    Progress.PartyDistinct { p with party := p.party ++ [member] } := by
  refine List.pairwise_append.2 ⟨h, List.pairwise_singleton _ _, ?_⟩
  intro old hold joined hjoined
  rw [List.mem_singleton.1 hjoined]
  exact Bool.eq_false_iff.2 fun hsame => hnew (List.any_eq_true.2 ⟨old, hold, hsame⟩)

/-! ## Games that grow -/

/-- Whatever was achieved in one game is achieved in another. The party has new members at its end
only, and they differ from each other and from the old ones. -/
structure Game.GrowsInto (g g' : Game) : Prop where
  milestones : g.state.milestones ⊆ g'.state.milestones
  completedQuests : g.state.completedQuests ⊆ g'.state.completedQuests
  failedQuests : g.state.failedQuests ⊆ g'.state.failedQuests
  tasks : ∀ quest, g.state.tasksDone quest ⊆ g'.state.tasksDone quest
  tutorials : g.state.tutorials ⊆ g'.state.tutorials
  completedEvents : g.state.completedEvents ⊆ g'.state.completedEvents
  searchableRooms : g.progress.searchableRooms ⊆ g'.progress.searchableRooms
  party : g.progress.party <+: g'.progress.party
  distinct : g.progress.PartyDistinct → g'.progress.PartyDistinct

namespace Game

variable {g g' g'' : Game}

theorem GrowsInto.refl (g : Game) : g.GrowsInto g where
  milestones := IdSet.subset_refl _
  completedQuests := IdSet.subset_refl _
  failedQuests := IdSet.subset_refl _
  tasks _ := IdSet.subset_refl _
  tutorials := IdSet.subset_refl _
  completedEvents := IdSet.subset_refl _
  searchableRooms := IdSet.subset_refl _
  party := List.prefix_refl _
  distinct := id

theorem GrowsInto.trans (h : g.GrowsInto g') (h' : g'.GrowsInto g'') : g.GrowsInto g'' where
  milestones := IdSet.subset_trans h.milestones h'.milestones
  completedQuests := IdSet.subset_trans h.completedQuests h'.completedQuests
  failedQuests := IdSet.subset_trans h.failedQuests h'.failedQuests
  tasks quest := IdSet.subset_trans (h.tasks quest) (h'.tasks quest)
  tutorials := IdSet.subset_trans h.tutorials h'.tutorials
  completedEvents := IdSet.subset_trans h.completedEvents h'.completedEvents
  searchableRooms := IdSet.subset_trans h.searchableRooms h'.searchableRooms
  party := h.party.trans h'.party
  distinct hdistinct := h'.distinct (h.distinct hdistinct)

/-- **Every effect adds to what was achieved**, or leaves it alone. -/
theorem growsInto_apply (g : Game) (x : Effect) : g.GrowsInto (g.apply x) := by
  have hsame := GrowsInto.refl g
  cases x with
  | grantReward r =>
      obtain ⟨inventory, xp, credits, ap, hgranted⟩ := g.exists_granted r
      rw [apply, hgranted]
      exact { hsame with }
  | takeItem item n =>
      simp only [apply]
      split
      · exact { hsame with }
      · exact hsame
  | unlockRoomSearch room note => exact { hsame with searchableRooms := IdSet.subset_add _ _ }
  | partyMemberJoined member =>
      by_cases hknown : g.progress.party.any (Text.sameId · member) = true
      · have hstays : g.apply (.partyMemberJoined member) = g := by
          simp only [apply, updateProgress, if_pos hknown]
        rw [hstays]
        exact hsame
      · have hjoins : g.apply (.partyMemberJoined member) =
            { g with progress := { g.progress with party := g.progress.party ++ [member] } } := by
          simp only [apply, updateProgress, if_neg hknown]
        rw [hjoins]
        exact { hsame with
          party := List.prefix_append _ _
          distinct := fun h => h.join hknown }
  | completeQuest quest => exact { hsame with completedQuests := IdSet.subset_add _ quest }
  | failQuest quest reason =>
      simp only [apply]
      split
      · exact { hsame with failedQuests := IdSet.subset_add _ quest }
      · exact { hsame with failedQuests := IdSet.subset_add _ quest }
  | advanceQuestStage quest stage => cases quest <;> cases stage <;> exact { hsame with }
  | updateQuestTask quest task =>
      cases quest with
      | none => exact hsame
      | some quest =>
          cases task with
          | none => exact hsame
          | some task =>
              exact { hsame with tasks := SessionState.tasksDone_insert quest task }
  | milestoneSet milestone => exact { hsame with milestones := IdSet.subset_add _ milestone }
  | _ => exact { hsame with }

theorem growsInto_markEvent (g : Game) (event : String) : g.GrowsInto (g.markEvent event) :=
  { GrowsInto.refl g with completedEvents := IdSet.subset_add _ event }

theorem growsInto_seeTutorial (g : Game) (tutorial : Option String) :
    g.GrowsInto (g.seeTutorial tutorial) := by
  cases tutorial with
  | none => exact .refl g
  | some tutorial => exact { GrowsInto.refl g with tutorials := IdSet.subset_add _ tutorial }

theorem growsInto_enterRoom (g : Game) (room : String) : g.GrowsInto (g.enterRoom room) :=
  { GrowsInto.refl g with }

end Game

/-! ## Conditions that stay true -/

/-- A condition that asks for something achieved. -/
def Condition.isAchievement : Condition → Bool
  | .milestoneSet _ | .questCompleted _ | .questFailed _ => true
  | .questTaskDone .. | .eventCompleted _ | .tutorialCompleted _ => true
  | _ => false

/-- What was achieved in a game is achieved in every game that it grows into. -/
theorem Game.GrowsInto.evaluate {g g' : Game} (h : g.GrowsInto g') {c : Condition}
    (hc : c.isAchievement = true) (htrue : c.evaluate g.state = some true) :
    c.evaluate g'.state = some true := by
  cases c with
  | milestoneSet m => exact congrArg some (h.milestones m (Option.some.inj htrue))
  | questCompleted q => exact congrArg some (h.completedQuests q (Option.some.inj htrue))
  | questFailed q => exact congrArg some (h.failedQuests q (Option.some.inj htrue))
  | questTaskDone q t =>
      rw [Condition.evaluate, SessionState.taskDone_eq] at htrue ⊢
      exact congrArg some (h.tasks q t (Option.some.inj htrue))
  | eventCompleted e => exact congrArg some (h.completedEvents e (Option.some.inj htrue))
  | tutorialCompleted t => exact congrArg some (h.tutorials t (Option.some.inj htrue))
  | _ => cases hc

/-! ## Runs over a session -/

/-- The games of a run since some moments ago, newest first: that of now, that of each moment, and the
one at the start. -/
def games (origin : Game) (new : List Moment) (w : World) : List Game :=
  (w.game :: new.map (·.game)) ++ [origin]

/-- Since the trace was `base` the game has only grown. -/
def Growing (origin : Game) (base : List Moment) (w : World) : Prop :=
  ∃ new, w.trace = new ++ base ∧
    (games origin new w).Pairwise fun later earlier => earlier.GrowsInto later

namespace Growing

variable {origin : Game} {base : List Moment} {u v : World}

theorem start (w : World) : Growing w.game w.trace w :=
  ⟨[], rfl, by simp [games, Game.GrowsInto.refl]⟩

/-- The game grows once more, and nothing is told of it. -/
theorem change (hu : Growing origin base u) (hgame : u.game.GrowsInto v.game)
    (htrace : v.trace = u.trace) : Growing origin base v := by
  obtain ⟨new, hnew, hgrown⟩ := hu
  obtain ⟨hnow, hbefore⟩ := List.pairwise_cons.1 hgrown
  exact ⟨new, htrace.trans hnew,
    List.pairwise_cons.2 ⟨fun g hg => (hnow g hg).trans hgame, hbefore⟩⟩

/-- Something happens, and the game is as it was. -/
theorem note (hu : Growing origin base u) (x : Happening) : Growing origin base (u.note x) := by
  obtain ⟨new, hnew, hgrown⟩ := hu
  refine ⟨⟨x, u.game, u.depth⟩ :: new, congrArg _ hnew, List.pairwise_cons.2 ⟨?_, hgrown⟩⟩
  intro g hg
  rcases List.mem_cons.1 hg with rfl | hbefore
  · exact .refl _
  · exact List.rel_of_pairwise_cons hgrown hbefore

/-- **Everything that happens over a session lets the game grow.** -/
theorem invariant (origin : Game) (base : List Moment) :
    TraceInvariant (fun f => ∀ g : Game, g.GrowsInto (f g)) (Growing origin base) where
  same hu hgame htrace := hu.change (hgame ▸ .refl _) htrace
  arranged hu hf := hu.change (hf _) rfl
  noted hu _ := hu.note _
  called hu x := (hu.note _).change (Game.growsInto_apply _ x) rfl
  marked event g := g.growsInto_markEvent event
  seen tutorial g := g.growsInto_seeTutorial tutorial
  entered room g := g.growsInto_enterRoom room

end Growing

/-- **What was achieved in a session stays achieved.** In a run over a session that loads no other state,
take the game at the start, at each moment of the run and at the end, and of these any two: the later
one has all milestones, completed and failed quests, tasks, tutorials, fired events and searchable
rooms of the earlier one, and its party is that of the earlier one with the members who joined
meanwhile behind it. A condition that asks for such a thing and is true of the earlier one is true of
the later one. If no two members of the party are the same up to case at the start, no two ever are. -/
theorem achievements_are_permanent {p : Play}
    (hsession : ∃ screen, p.wiring.receiver = .session screen) {moves : List Move}
    (hmoves : ∀ m ∈ moves, m.KeepsBooks) :
    ∃ new, (p.run moves).world.trace = new ++ p.world.trace ∧
      ((games p.world.game new (p.run moves).world).Pairwise fun later earlier =>
        earlier.GrowsInto later ∧ ∀ c : Condition, c.isAchievement = true →
          c.evaluate earlier.state = some true → c.evaluate later.state = some true) ∧
      (p.world.game.progress.PartyDistinct →
        ∀ g ∈ games p.world.game new (p.run moves).world, g.progress.PartyDistinct) := by
  obtain ⟨new, hnew, hgrown⟩ := (Growing.invariant p.world.game p.world.trace).run hsession hmoves
    (Growing.start p.world)
  refine ⟨new, hnew, hgrown.imp fun hgrows => ⟨hgrows, fun c => hgrows.evaluate⟩, ?_⟩
  intro hdistinct g hg
  -- the game at the start is the last one, so every other has grown out of it
  obtain ⟨-, -, hstart⟩ := List.pairwise_append.1 hgrown
  rcases List.mem_append.1 hg with hlater | horigin
  · exact (hstart g hlater p.world.game List.mem_cons_self).distinct hdistinct
  · rw [List.mem_singleton.1 horigin]
    exact hdistinct

/-- Ada joins and joins again, and the harvest is brought in before it fails in the sequel of a
lesson: at the end it counts as both, the lesson counts as seen, and Ada is in the party once. -/
theorem harvest_stays_brought_in :
    let p := Play.start ∅ {} ⟨.session .park, true⟩ {}
    let joins (name : String) : Action := .deed (.partyMemberJoined (some name))
    let moves : List Move := [
      .perform [joins "Ada", .deed (.completeQuest (some "harvest")),
        .systemTutorial (some "threshing") none [.deed (.failQuest (some "harvest") "rain")]],
      .setRoom "barn", .finishScene,
      .perform [joins "ADA", .deed (.startQuest (some "harvest")), .deed (.unlockRoomSearch none none)]]
    let g := (p.run moves).world.game
    (∀ m ∈ moves, m.KeepsBooks) ∧ g.progress.party = ["Ada"] ∧
      g.state.failedQuests.contains "harvest" = true ∧
      g.state.tutorials.contains "threshing" = true ∧
      g.progress.searchableRooms.contains "barn" = true ∧
      (∃ new, (p.run moves).world.trace = new ++ p.world.trace ∧
        ∀ m ∈ new, Condition.evaluate m.game.state (.questCompleted "harvest") = some true →
          Condition.evaluate g.state (.questCompleted "harvest") = some true) := by
  intro p joins moves g
  have hmoves : ∀ m ∈ moves, m.KeepsBooks := by
    simp [moves, Move.KeepsBooks]
  obtain ⟨new, hnew, hgrown, -⟩ := achievements_are_permanent (p := p) ⟨.park, rfl⟩ hmoves
  refine ⟨hmoves, by decide +kernel, by decide +kernel, by decide +kernel, by decide +kernel,
    new, hnew, fun m hm => ?_⟩
  have hlater : m.game ∈ new.map (·.game) ++ [p.world.game] :=
    List.mem_append_left _ (List.mem_map_of_mem hm)
  exact (List.rel_of_pairwise_cons hgrown hlater).2 _ rfl

end Narrative
