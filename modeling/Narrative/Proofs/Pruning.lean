import Narrative.Proofs.Recasting
import Narrative.Proofs.Snapshot

set_option autoImplicit false

/-!
# Unknown actions are dead code

An action of an unknown type is counted and does nothing else. So it can be taken out of every
list it stands in, inside branches and after scenes too (`Action.pruneAll`), out of the events of
a catalog (`Catalog.prune`) and out of what the host performs: no host can tell
(`unknown_actions_are_dead`).

A sequel may run long after its scene was asked for, so the tokens of the two runs hold a list and
the same list pruned. This is one of the differences that a `Staging` allows, and a pruned catalog is a
recast one (`Pruned.recasts`). That what is left of the actions does the same is shown by an induction
over the actions (`Pruned.runAll`).
-/

namespace Narrative

namespace Action

mutual

/-- What is left of an action without the unknown actions in it: nothing if it is unknown. -/
def prune : Action → List Action
  | .deed d => [.deed d]
  | .branch test thenDo elseDo => [.branch test (pruneAll thenDo) (pruneAll elseDo)]
  | .playCinematic scene onComplete => [.playCinematic scene (pruneAll onComplete)]
  | .systemTutorial scene context onComplete =>
      [.systemTutorial scene context (pruneAll onComplete)]
  | .playerAction action item => [.playerAction action item]
  | .unknown _ => []

/-- A list of actions without the unknown ones, at any depth. -/
def pruneAll : List Action → List Action
  | [] => []
  | a :: rest => prune a ++ pruneAll rest

end

theorem unknownTypesOf_append (actions more : List Action) :
    unknownTypesOf (actions ++ more) = unknownTypesOf actions ++ unknownTypesOf more := by
  induction actions with
  | nil => rfl
  | cons a rest ih => simp only [List.cons_append, unknownTypesOf, ih, List.append_assoc]

theorem unknownTypesOf_singleton (a : Action) : unknownTypesOf [a] = unknownTypes a := by
  simp only [unknownTypesOf, List.append_nil]

mutual

theorem unknownTypesOf_prune (a : Action) : unknownTypesOf (prune a) = [] := by
  cases a with
  | unknown => rfl
  | branch test thenDo elseDo =>
      rw [prune, unknownTypesOf_singleton, unknownTypes, unknownTypesOf_pruneAll thenDo,
        unknownTypesOf_pruneAll elseDo]
      rfl
  | playCinematic scene onComplete =>
      rw [prune, unknownTypesOf_singleton, unknownTypes, unknownTypesOf_pruneAll onComplete]
  | systemTutorial scene context onComplete =>
      rw [prune, unknownTypesOf_singleton, unknownTypes, unknownTypesOf_pruneAll onComplete]
  | deed | playerAction => rfl

/-- Nothing unknown is left. -/
theorem unknownTypesOf_pruneAll (actions : List Action) :
    unknownTypesOf (pruneAll actions) = [] := by
  cases actions with
  | nil => rfl
  | cons a rest =>
      rw [pruneAll, unknownTypesOf_append, unknownTypesOf_prune a, unknownTypesOf_pruneAll rest]
      rfl

end

mutual

theorem prune_of_known {a : Action} (ha : unknownTypes a = []) : prune a = [a] := by
  cases a with
  | unknown type => cases ha
  | branch test thenDo elseDo =>
      rw [unknownTypes, List.append_eq_nil_iff] at ha
      rw [prune, pruneAll_of_known ha.1, pruneAll_of_known ha.2]
  | playCinematic scene onComplete =>
      rw [unknownTypes] at ha
      rw [prune, pruneAll_of_known ha]
  | systemTutorial scene context onComplete =>
      rw [unknownTypes] at ha
      rw [prune, pruneAll_of_known ha]
  | deed | playerAction => rw [prune]

/-- A list without unknown actions stays as it is. -/
theorem pruneAll_of_known {actions : List Action} (h : unknownTypesOf actions = []) :
    pruneAll actions = actions := by
  cases actions with
  | nil => rfl
  | cons a rest =>
      rw [unknownTypesOf, List.append_eq_nil_iff] at h
      rw [pruneAll, prune_of_known h.1, pruneAll_of_known h.2]
      rfl

end

/-- To prune twice is to prune once. -/
theorem pruneAll_pruneAll (actions : List Action) :
    pruneAll (pruneAll actions) = pruneAll actions :=
  pruneAll_of_known (unknownTypesOf_pruneAll actions)

end Action

/-! ## Pruned catalogs and moves -/

/-- An event without unknown actions. -/
def Event.prune (event : Event) : Event := { event with actions := Action.pruneAll event.actions }

/-- A candidate without unknown actions. -/
def Candidate.prune (c : Candidate) : Candidate := { c with event := c.event.prune }

/-- A catalog without unknown actions. -/
def Catalog.prune (c : Catalog) : Catalog where
  events := c.events.map Event.prune
  byTrigger := c.byTrigger.mapValues (·.map Candidate.prune)

/-- A move of the host without unknown actions. -/
def Move.prune : Move → Move
  | .perform actions => .perform (Action.pruneAll actions)
  | .execute actions state => .execute (Action.pruneAll actions) state
  | .restart catalog config => .restart catalog.prune config
  | m => m

/-- A step of the host without unknown actions. -/
def HostStep.prune : HostStep → HostStep
  | .move m => .move m.prune
  | .drain => .drain

theorem Event.prune_prune (event : Event) : event.prune.prune = event.prune := by
  simp only [Event.prune, Action.pruneAll_pruneAll]

namespace Catalog

/-- **A pruned catalog is the catalog of the pruned events.** -/
theorem ofEvents_prune (events : List Event) :
    ofEvents (events.map Event.prune) = (ofEvents events).map Catalog.prune :=
  ofEvents_map (f := Event.prune) (fun _ => rfl) (fun _ => rfl) events

end Catalog

/-! ## Pruned runs -/

/-- What happens, with the events pruned. -/
def Happening.prune : Happening → Happening
  | .began c => .began c.prune
  | x => x

/-- A moment with the events pruned. -/
def Moment.prune (m : Moment) : Moment := { m with happening := m.happening.prune }

/-- Behind the scenes of a pruned run the actions that are still to come are pruned, fewer actions
are counted, and the trace names pruned events. -/
def pruning : Staging where
  rewrite := Action.pruneAll
  counters n n' := ∃ actions, n' = { n with actionsExecuted := actions }
  trace ms ms' := ms'.map Moment.prune = ms.map Moment.prune
  counters_refl n := ⟨n.actionsExecuted, rfl⟩
  trace_refl _ := rfl
  counted more := by
    rintro n _ ⟨actions, rfl⟩
    exact ⟨actions + more.actionsExecuted, rfl⟩
  noted m ms ms' h := by rw [List.map_cons, List.map_cons, h]

namespace Pruned

variable {e e' : Engine} {wiring : Wiring} {reach reach' : Reach}

/-- An unknown action is counted in one run only. -/
theorem started {u v : World} (h : Restaged pruning u v) : Restaged pruning u.started v := by
  obtain ⟨counters, trace, ⟨actions, rfl⟩, hnote, rfl⟩ := h
  exact ⟨_, trace, ⟨actions, rfl⟩, hnote, rfl⟩

mutual

/-- What is left of an action does the same. -/
theorem run (acting : pruning.Acting e e' wiring reach reach') (a : Action) (s : SessionState)
    {u v : World} (h : Restaged pruning u v) :
    Matches (Restaged pruning) (Action.run e wiring reach a s u)
      (Action.runAll e' wiring reach' (Action.prune a) s v) := by
  cases a with
  | unknown type =>
      rw [Action.prune, Action.runAll, Action.run]
      exact ⟨rfl, started h⟩
  | deed d =>
      rw [Action.prune, Action.runAll_singleton]
      exact acting.run_deed d s h
  | branch test thenDo elseDo =>
      rw [Action.prune, Action.runAll_singleton]
      exact acting.run_branch test (runAll acting thenDo) (runAll acting elseDo) s h
  | playCinematic scene onComplete =>
      rw [Action.prune, Action.runAll_singleton]
      exact acting.run_playCinematic scene (runAll acting onComplete) s h
  | systemTutorial scene context onComplete =>
      rw [Action.prune, Action.runAll_singleton]
      exact acting.run_systemTutorial scene context (runAll acting onComplete) s h
  | playerAction action item =>
      rw [Action.prune, Action.runAll_singleton]
      exact acting.run_playerAction action item s h

/-- What is left of a list does the same. -/
theorem runAll (acting : pruning.Acting e e' wiring reach reach') (actions : List Action) :
    pruning.SameRun e e' wiring reach reach' actions (Action.pruneAll actions) := by
  intro s u v h
  cases actions with
  | nil =>
      rw [Action.pruneAll, Action.runAll, Action.runAll]
      exact ⟨rfl, h⟩
  | cons a rest =>
      have hfirst := run acting a s h
      have hrest := runAll acting rest s hfirst.world
      rw [Action.pruneAll, Action.runAll_append, Action.runAll]
      refine ⟨?_, hrest.world⟩
      simp only [hfirst.answer, hrest.answer]

end

/-- A catalog is recast when it is pruned. -/
theorem recasts : pruning.Recasts Event.prune where
  id _ := rfl
  repeatable _ := rfl
  conditions _ := rfl
  kind _ := rfl
  isMatch _ _ _ _ := rfl
  actions _ := rfl
  began c g depth ms ms' h := by
    -- the two moments differ in the event that they name
    have hbegan :
        Moment.prune ⟨.began c.prune, g, depth⟩ = Moment.prune ⟨.began c, g, depth⟩ := by
      simp only [Moment.prune, Happening.prune, Candidate.prune, Event.prune_prune]
    show (⟨.began c.prune, g, depth⟩ :: ms').map Moment.prune =
      (⟨.began c, g, depth⟩ :: ms).map Moment.prune
    rw [List.map_cons, List.map_cons, hbegan]
    exact congrArg _ h

/-- The pairing of runs with pruned runs. -/
theorem fair : (pruning.pairing fun c c' => c' = c.prune).Fair Eq :=
  Staging.fair_recast recasts fun acting => runAll acting

end Pruned

/-- A step and the pruned step correspond, as long as no receiver is installed that looks behind the
scenes. -/
theorem HostStep.fits_prune (step : HostStep)
    (hstep : ∀ wiring, step = .move (.rewire wiring) → wiring.receiver.IgnoresStaging pruning) :
    step.Fits (Move.Paired (pruning.pairing fun c c' => c' = c.prune)) step.prune := by
  cases step with
  | drain => exact .drain
  | move m =>
      have hpruned (actions : List Action) : pruning.Fits actions (Action.pruneAll actions) := rfl
      refine .move ?_
      cases m with
      | rewire wiring => exact .rewire (hstep wiring rfl)
      | restart catalog config => exact .restart fun _ => ⟨rfl, rfl, rfl⟩
      | perform actions => exact .fits (.perform (hpruned actions))
      | execute actions s => exact .fits (.execute (hpruned actions) s)
      | trigger type payload => exact .fits (.trigger trivial payload)
      | occur o => exact .fits (.occur trivial)
      | _ => exact .fits (by constructor)

/-- **Unknown actions are dead code.** Take the unknown actions out of the events of a catalog and
out of whatever the host performs or starts later, at any depth, inside branches and after scenes
too. Then nothing unknown is left in the catalog, which is the one that the pruned events have, and
no host can tell: whatever it does, and whenever it reads the journal, it gets the same answers and
the same entries, and comes to the same world, with the same game, queue, journal and counters but
for the count of the actions run. The tokens are the same but for the actions that are still to
follow, which are pruned, and the trace tells the same moments but for the actions of the events.
This holds of every receiver that does not look behind the scenes, and so of every session. -/
theorem unknown_actions_are_dead {wiring : Wiring} {steps : List HostStep}
    (hreceiver : wiring.receiver.IgnoresStaging pruning)
    (hsteps : ∀ wiring, .move (.rewire wiring) ∈ steps → wiring.receiver.IgnoresStaging pruning)
    (c : Catalog) (config : EngineConfig) (state : SessionState) :
    let r := (Play.start c config wiring state).proceed steps
    let r' := (Play.start c.prune config wiring state).proceed (steps.map HostStep.prune)
    (∀ events, Catalog.ofEvents events = .ok c →
      Catalog.ofEvents (events.map Event.prune) = .ok c.prune) ∧
    (∀ event ∈ c.prune.events, Action.unknownTypesOf event.actions = []) ∧
    r'.answers = r.answers ∧ r'.taken = r.taken ∧
    ∃ (actions : Nat) (trace : List Moment),
      trace.map Moment.prune = r.play.world.trace.map Moment.prune ∧
      r'.play.world = r.play.world.restage Action.pruneAll
        { r.play.world.counters with actionsExecuted := actions } trace := by
  intro r r'
  have hfits : List.Forall₂
      (HostStep.Fits (Move.Paired (pruning.pairing fun c c' => c' = c.prune)))
      steps (steps.map HostStep.prune) := by
    refine List.forall₂_map_right_iff.2 (List.forall₂_same.2 fun step hstep => ?_)
    refine step.fits_prune fun wiring hwiring => hsteps wiring ?_
    exact hwiring ▸ hstep
  have hstart := pruning.start (C := fun c c' => c' = c.prune) (c := c) rfl config hreceiver state
  obtain ⟨hanswers, htaken, hlast⟩ := hstart.compares Pruned.fair hfits
  obtain ⟨counters, trace, ⟨actions, rfl⟩, hnote, hworld⟩ := hlast.world
  refine ⟨fun events hc => ?_, fun event hevent => ?_, Answer.eq_of_compares hanswers, htaken,
    actions, trace, hnote, hworld⟩
  · rw [Catalog.ofEvents_prune, hc]
    rfl
  · obtain ⟨original, -, rfl⟩ := List.mem_map.1 hevent
    exact Action.unknownTypesOf_pruneAll original.actions

/-- An event that asks for things nobody has heard of: at once, in a branch and after a scene. -/
def riddle : Event where
  id := "riddle"
  trigger := .ofAuthored { type := "player_action", action := some "ask" }
  conditions := []
  actions := [.unknown "hum", .branch (.milestoneNotSet "told")
    [.playCinematic (some "tale") [.unknown "sigh", .deed (.giveXp (some 5))], .unknown "hum"] []]
  repeatable := true

/-- Somebody asks, sees the tale to its end and hums. -/
def asking : List HostStep :=
  [.move (.occur (.playerAction "ask" none)), .move .finishScene,
    .move (.perform [.unknown "hum"]), .drain]

/-- The riddle counts seven actions. Three of them are left when it is told without the noise, and
the same comes of it. -/
theorem riddle_without_noise : ∃ c, Catalog.ofEvents [riddle] = .ok c ∧
    let r := (Play.start c {} ⟨.session .park, true⟩ {}).proceed asking
    let r' := (Play.start c.prune {} ⟨.session .park, true⟩ {}).proceed (asking.map HostStep.prune)
    r.play.world.game.progress.xp = 5 ∧ r.play.world.counters.actionsExecuted = 7 ∧
      r'.play.world.counters.actionsExecuted = 3 ∧ r'.answers = r.answers ∧ r'.taken = r.taken := by
  have hrewire : ∀ wiring, .move (.rewire wiring) ∈ asking →
      wiring.receiver.IgnoresStaging pruning := by
    simp [asking]
  have hdead := @unknown_actions_are_dead ⟨.session .park, true⟩ asking
    (Receiver.ignoresStaging_session pruning .park) hrewire
  refine ⟨_, rfl, by decide +kernel, by decide +kernel, by decide +kernel, ?_⟩
  obtain ⟨-, -, hanswers, htaken, -⟩ := hdead _ {} {}
  exact ⟨hanswers, htaken⟩

end Narrative
