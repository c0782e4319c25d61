import Narrative.Proofs.Staging
import Narrative.Proofs.Index

set_option autoImplicit false

/-!
# Recast catalogs

A catalog may be recast: every event is changed in one way, with the actions rewritten, and is
otherwise the event it was for conditions, triggers and records (`Staging.Recasts`). If the rewritten
actions do the same, engines over the catalog and over the recast one are twins (`Staging.twins`).

That rewritten actions do the same is shown by an induction over the actions. What it needs for each
kind of action is that the actions inside it do the same (`Staging.Acting.run_branch` and so on).
-/

namespace Narrative

/-- Two interpreters over related worlds: they have the same settings, and what is outside of an action
list comes to the same. -/
structure Staging.Acting (σ : Staging) (e e' : Engine) (wiring : Wiring) (reach reach' : Reach) :
    Prop where
  receiver : wiring.receiver.IgnoresStaging σ
  config : e'.config = e.config
  serial : e'.serial = e.serial
  reach : reach.Parallel wiring (Restaged σ) reach'

/-- Two lists of actions do the same, whatever the snapshot. -/
def Staging.SameRun (σ : Staging) (e e' : Engine) (wiring : Wiring) (reach reach' : Reach)
    (actions actions' : List Action) : Prop :=
  ∀ (s : SessionState) {u v : World}, Restaged σ u v →
    Matches (Restaged σ) (Action.runAll e wiring reach actions s u)
      (Action.runAll e' wiring reach' actions' s v)

namespace Staging.Acting

variable {σ : Staging} {e e' : Engine} {wiring : Wiring} {reach reach' : Reach} {u v : World}

/-- An unknown action does nothing in either world. -/
theorem run_unknown (type : String) (s : SessionState) (h : Restaged σ u v) :
    Matches (Restaged σ) (Action.run e wiring reach (.unknown type) s u)
      (Action.run e' wiring reach' (.unknown type) s v) := by
  rw [Action.run, Action.run]
  exact ⟨rfl, Restaged.started h⟩

variable (acting : σ.Acting e e' wiring reach reach')

include acting

theorem unaware : Unaware wiring wiring σ.Fits (Restaged σ) := Restaged.unaware acting.receiver

theorem run_deed (d : Deed) (s : SessionState) (h : Restaged σ u v) :
    Matches (Restaged σ) (Action.run e wiring reach (.deed d) s u)
      (Action.run e' wiring reach' (.deed d) s v) := by
  rw [Action.run, Action.run]
  exact Matches.performAll (fun x _ _ h => acting.unaware.perform acting.reach.revive x h) d.effects
    (Restaged.started h)

theorem run_branch (test : Condition) {thenDo elseDo thenDo' elseDo' : List Action}
    (hthen : σ.SameRun e e' wiring reach reach' thenDo thenDo')
    (helse : σ.SameRun e e' wiring reach reach' elseDo elseDo') (s : SessionState)
    (h : Restaged σ u v) :
    Matches (Restaged σ) (Action.run e wiring reach (.branch test thenDo elseDo) s u)
      (Action.run e' wiring reach' (.branch test thenDo' elseDo') s v) := by
  have htest := Restaged.conditionsHold acting.config [test] s (Restaged.started h)
  rw [Action.run, Action.run]
  simp only [htest.answer]
  split
  · exact hthen s htest.world
  · exact helse s htest.world

/-- A scene is asked for in both worlds, and what follows it does the same. -/
theorem runScene (request : SceneRequest) {onComplete : List Action}
    (hcomplete : σ.SameRun e e' wiring reach reach' onComplete (σ.rewrite onComplete)) :
    Carries (Restaged σ)
      (·.runScene wiring reach.revive request ⟨e.serial, onComplete⟩ fun w =>
        (Action.runAll e wiring reach onComplete w.game.state w).2)
      (·.runScene wiring reach'.revive request ⟨e'.serial, σ.rewrite onComplete⟩ fun w =>
        (Action.runAll e' wiring reach' (σ.rewrite onComplete) w.game.state w).2) := by
  have hsequel : Sequel.Fits σ.Fits ⟨e.serial, onComplete⟩ ⟨e'.serial, σ.rewrite onComplete⟩ :=
    ⟨acting.serial, rfl⟩
  intro u v h
  exact acting.unaware.runScene acting.reach.revive request hsequel
    (Matches.carries Restaged.state hcomplete) h

theorem run_playCinematic (scene : Option String) {onComplete : List Action}
    (hcomplete : σ.SameRun e e' wiring reach reach' onComplete (σ.rewrite onComplete))
    (s : SessionState) (h : Restaged σ u v) :
    Matches (Restaged σ) (Action.run e wiring reach (.playCinematic scene onComplete) s u)
      (Action.run e' wiring reach' (.playCinematic scene (σ.rewrite onComplete)) s v) := by
  rcases scene with _ | scene
  · rw [Action.run, Action.run]
    exact hcomplete s (Restaged.started h)
  · rw [Action.run, Action.run]
    exact ⟨rfl, acting.runScene _ hcomplete (Restaged.started h)⟩

theorem run_systemTutorial (scene context : Option String) {onComplete : List Action}
    (hcomplete : σ.SameRun e e' wiring reach reach' onComplete (σ.rewrite onComplete))
    (s : SessionState) (h : Restaged σ u v) :
    Matches (Restaged σ) (Action.run e wiring reach (.systemTutorial scene context onComplete) s u)
      (Action.run e' wiring reach' (.systemTutorial scene context (σ.rewrite onComplete)) s v) := by
  rw [Action.run, Action.run]
  exact ⟨rfl, acting.runScene _ hcomplete (Restaged.started h)⟩

theorem run_playerAction (action item : Option String) (s : SessionState) (h : Restaged σ u v) :
    Matches (Restaged σ) (Action.run e wiring reach (.playerAction action item) s u)
      (Action.run e' wiring reach' (.playerAction action item) s v) := by
  rcases action with _ | action
  · rw [Action.run, Action.run]
    exact ⟨rfl, Restaged.started h⟩
  · rw [Action.run, Action.run]
    exact acting.reach.raise _ (Restaged.started h)

end Staging.Acting

/-! ## Recast events -/

/-- A change of events that rewrites the actions as a staging does. Conditions and triggers decide
alike, records are the same, and the trace may name the changed event. -/
structure Staging.Recasts (σ : Staging) (f : Event → Event) : Prop where
  id : ∀ event, (f event).id = event.id
  repeatable : ∀ event, (f event).repeatable = event.repeatable
  conditions : ∀ event, (f event).conditions = event.conditions
  kind : ∀ event, (f event).trigger.kind = event.trigger.kind
  isMatch : ∀ (policy : UnknownPolicy) (event : Event) (p : Payload) (s : SessionState),
    (f event).trigger.isMatch policy p s = event.trigger.isMatch policy p s
  actions : ∀ event, (f event).actions = σ.rewrite event.actions
  began : ∀ (c : Candidate) (g : Game) (depth : UInt32) {ms ms' : List Moment}, σ.trace ms ms' →
    σ.trace (⟨.began c, g, depth⟩ :: ms) (⟨.began (c.mapEvent f), g, depth⟩ :: ms')

namespace Staging

variable {σ : Staging} {f : Event → Event} {e e' : Engine} {wiring : Wiring}

/-- **Engines over a catalog and over the recast one are twins**, if the rewritten actions do the
same. -/
theorem twins (recasts : σ.Recasts f) (hreceiver : wiring.receiver.IgnoresStaging σ)
    (hcatalog : e'.catalog = e.catalog.mapEvents f) (hconfig : e'.config = e.config)
    (hserial : e'.serial = e.serial)
    (hrun : ∀ {k : Nat}, σ.Acting e e' wiring (e.reach wiring k) (e'.reach wiring k) →
      ∀ actions, σ.SameRun e e' wiring (e.reach wiring k) (e'.reach wiring k) actions
        (σ.rewrite actions)) :
    Twins e e' wiring wiring ⟨fun _ => True, fun c c' => c' = c.mapEvent f, σ.Fits⟩
      (Restaged σ) where
  limit := by rw [hconfig]
  state := Restaged.state
  depth := Restaged.depth
  counted more _ := Restaged.count more
  stalled := Restaged.note .stalled
  dispatched := Restaged.dispatched
  entered := Restaged.entered
  left := Restaged.left
  raised := trivial
  candidates {t} _ := by
    rw [hcatalog, Catalog.candidates_mapEvents]
    exact List.forall₂_map_right_iff.2 (List.forall₂_same.2 fun _ _ => rfl)
  id := by
    rintro c _ rfl
    exact recasts.id c.event
  repeatable := by
    rintro c _ rfl
    exact recasts.repeatable c.event
  actions := by
    rintro c _ rfl
    exact recasts.actions c.event
  conditions := by
    rintro c _ rfl s u v h
    rw [Candidate.mapEvent, recasts.conditions]
    exact h.conditionsHold hconfig c.event.conditions s
  trigger := by
    rintro c _ rfl p s u v h
    have hsame : e'.triggerMatches (f c.event).trigger p s v =
        e'.triggerMatches c.event.trigger p s v := by
      rw [Engine.triggerMatches, Engine.triggerMatches, recasts.isMatch, recasts.kind]
    rw [Candidate.mapEvent, hsame]
    exact h.triggerMatches hconfig c.event.trigger p s
  flying := by
    rintro c _ rfl u v h
    rw [h.inFlight]
    rfl
  begun := by
    rintro c _ rfl u _ ⟨counters, trace, hcount, hnote, rfl⟩
    exact ⟨counters, _, hcount, recasts.began c u.game u.depth hnote, rfl⟩
  landed := by
    rintro c _ rfl
    exact Restaged.guards id (·.erase c.position)
  recorded event := Restaged.changeGame event.record
  call hreach x _ _ h := (Restaged.unaware hreceiver).perform hreach.revive x h
  runAll := by
    rintro k hreach actions _ rfl s u v h
    exact hrun ⟨hreceiver, hconfig, hserial, hreach⟩ actions s h
  resumption _ _ hruns token := (Restaged.unaware hreceiver).follow hserial hruns token

/-- The pairing of runs with runs over recast catalogs is fair. -/
theorem fair_recast (recasts : σ.Recasts f)
    (hrun : ∀ {e e' : Engine} {wiring : Wiring} {k : Nat},
      σ.Acting e e' wiring (e.reach wiring k) (e'.reach wiring k) →
      ∀ actions, σ.SameRun e e' wiring (e.reach wiring k) (e'.reach wiring k) actions
        (σ.rewrite actions)) :
    (σ.pairing fun c c' => c' = c.mapEvents f).Fair Eq :=
  σ.fair fun {_ _ _} hengines hreceiver =>
    (twins recasts hreceiver hengines.1 hengines.2.1 hengines.2.2 hrun).kin

end Staging

end Narrative
