import Mathlib.Data.List.Infix
import Narrative.Proofs.Conduct
import Narrative.Proofs.Nesting
import Narrative.Proofs.Abreast

set_option autoImplicit false

/-!
# More room

The limit on nested dispatches shows in refusals and in nothing else: an engine with a higher limit
does whatever an engine does that refuses nothing (`higher_limit_is_unnoticed`).

The two runs differ in the room that is left at every nested call, so they are not compared step by
step but result by result. A run prolongs another one (`Prolongs`, `Confirms`) if it comes to the
same whenever the other one ends unhindered: without a refusal, and without a call that was nested
deeper than the interpreter goes. Neither is ever taken back, so a run that ends unhindered was
unhindered at every point, and whatever is put together from runs is prolonged if its parts are.

This goes through calls and scenes, through actions by recursion (`Action.run_confirms`), through
the candidates of a dispatch and, by induction on the clock of the first run, through nested calls
(`Engine.reach_roomier`). With receivers that resume nothing but the token of a scene the clock is
never used up (`Play.isLive_move`).
-/

namespace Narrative

/-- Settings with another limit on nested dispatches. -/
def EngineConfig.withDepth (c : EngineConfig) (limit : UInt32) : EngineConfig :=
  { c with dispatch := { c.dispatch with maxDepth := limit } }

/-- An engine with another limit on nested dispatches. -/
def Engine.withDepth (e : Engine) (limit : UInt32) : Engine :=
  { e with config := e.config.withDepth limit }

/-! ## Unhindered runs -/

/-- No dispatch of the engine was refused, and no call was nested deeper than the interpreter
goes. -/
structure World.Unhindered (w : World) : Prop where
  admitted : w.counters.depthLimitHits = 0
  isLive : w.IsLive

/-- What hindered a run is not taken back. -/
theorem World.Unhindered.before {u v : World} (hv : v.Unhindered)
    (hhits : u.counters.depthLimitHits ≤ v.counters.depthLimitHits) (htrace : u.trace <:+ v.trace) :
    u.Unhindered where
  admitted := by
    rw [hv.admitted] at hhits
    exact Nat.le_zero.1 hhits
  isLive m hm := hv.isLive m (htrace.subset hm)

/-- Whenever a run ends unhindered, it was unhindered when it began, and the other run comes to the
same. -/
def Prolongs (run run' : World → World) : Prop :=
  ∀ w, (run w).Unhindered → w.Unhindered ∧ run' w = run w

/-- The same of runs that give an answer. -/
def Confirms {α : Type} (act act' : World → α × World) : Prop :=
  ∀ w, (act w).2.Unhindered → w.Unhindered ∧ act' w = act w

/-- The ways out of an action list that leave more room than others. -/
structure Reach.Roomier (reach reach' : Reach) : Prop where
  raise : ∀ payload, Confirms (reach.raise payload) (reach'.raise payload)
  revive : ∀ token, Prolongs (reach.revive token) (reach'.revive token)

section Composition

variable {α β : Type} {run run' next next' : World → World} {act act' : World → α × World}

/-- One run after another. -/
theorem Prolongs.andThen (hrun : Prolongs run run') (hnext : Prolongs next next') :
    Prolongs (fun w => next (run w)) (fun w => next' (run' w)) := by
  intro w hw
  obtain ⟨hmiddle, hlast⟩ := hnext (run w) hw
  obtain ⟨hfirst, hsame⟩ := hrun w hmiddle
  exact ⟨hfirst, (congrArg next' hsame).trans hlast⟩

/-- A run before one that gives an answer. -/
theorem Prolongs.andAnswer (hrun : Prolongs run run') (hact : Confirms act act') :
    Confirms (fun w => act (run w)) (fun w => act' (run' w)) := by
  intro w hw
  obtain ⟨hmiddle, hlast⟩ := hact (run w) hw
  obtain ⟨hfirst, hsame⟩ := hrun w hmiddle
  exact ⟨hfirst, (congrArg act' hsame).trans hlast⟩

/-- A run that depends on the answer to another one. -/
theorem Confirms.andThen (hact : Confirms act act') {next next' : α → World → β × World}
    (hnext : ∀ a, Confirms (next a) (next' a)) :
    Confirms (fun w => next (act w).1 (act w).2) (fun w => next' (act' w).1 (act' w).2) := by
  intro w hw
  obtain ⟨hmiddle, hlast⟩ := hnext (act w).1 (act w).2 hw
  obtain ⟨hfirst, hsame⟩ := hact w hmiddle
  refine ⟨hfirst, ?_⟩
  simp only [hsame]
  exact hlast

/-- A run whose answer is looked at and not passed on. -/
theorem Confirms.andRun (hact : Confirms act act') {next next' : α → World → World}
    (hnext : ∀ a, Prolongs (next a) (next' a)) :
    Prolongs (fun w => next (act w).1 (act w).2) (fun w => next' (act' w).1 (act' w).2) := by
  intro w hw
  obtain ⟨hmiddle, hlast⟩ := hnext (act w).1 (act w).2 hw
  obtain ⟨hfirst, hsame⟩ := hact w hmiddle
  refine ⟨hfirst, ?_⟩
  simp only [hsame]
  exact hlast

/-- A run whose answer is put together with what is known. -/
theorem Confirms.map (hact : Confirms act act') (f : α → β) :
    Confirms (fun w => (f (act w).1, (act w).2)) (fun w => (f (act' w).1, (act' w).2)) := by
  intro w hw
  obtain ⟨hfirst, hsame⟩ := hact w hw
  exact ⟨hfirst, congrArg (fun x => (f x.1, x.2)) hsame⟩

/-- A run with an answer that is known beforehand. -/
theorem Prolongs.answer (hrun : Prolongs run run') (a : α) :
    Confirms (fun w => (a, run w)) (fun w => (a, run' w)) := by
  intro w hw
  obtain ⟨hfirst, hsame⟩ := hrun w hw
  exact ⟨hfirst, congrArg (Prod.mk a) hsame⟩

end Composition

namespace Prolongs

/-- What is done to the world in both runs. -/
theorem same {f : World → World}
    (hhits : ∀ w, w.counters.depthLimitHits ≤ (f w).counters.depthLimitHits)
    (htrace : ∀ w, w.trace <:+ (f w).trace) : Prolongs f f :=
  fun w hw => ⟨hw.before (hhits w) (htrace w), rfl⟩

/-- What leaves the counters and the trace alone. -/
theorem aside {f : World → World} (hcounters : ∀ w, (f w).counters = w.counters)
    (htrace : ∀ w, (f w).trace = w.trace) : Prolongs f f :=
  same (fun w => Nat.le_of_eq (congrArg Counters.depthLimitHits (hcounters w)).symm)
    fun w => htrace w ▸ List.suffix_rfl

theorem refl : Prolongs id id := aside (fun _ => rfl) fun _ => rfl

theorem note (x : Happening) : Prolongs (·.note x) (·.note x) :=
  same (fun _ => Nat.le_refl _) fun _ => List.suffix_cons _ _

theorem count {f : Counters → Counters} (hf : ∀ n, (f n).depthLimitHits = n.depthLimitHits) :
    Prolongs (·.count f) (·.count f) :=
  same (fun w => Nat.le_of_eq (hf w.counters).symm) fun _ => List.suffix_rfl

theorem started : Prolongs World.started World.started := count fun _ => rfl

theorem changeGame (f : Game → Game) : Prolongs (·.changeGame f) (·.changeGame f) :=
  aside (fun _ => rfl) fun _ => rfl

theorem log (wiring : Wiring) (entry : Entry) :
    Prolongs (·.log wiring entry) (·.log wiring entry) := by
  refine aside (fun w => ?_) fun w => ?_ <;>
    obtain ⟨journal, hlog⟩ := w.exists_log wiring entry <;> simp only [hlog]

theorem fillIn (wiring : Wiring) (place : Nat) (kind : SceneKind) (answer : Playback) :
    Prolongs (·.fillIn wiring place kind answer) (·.fillIn wiring place kind answer) := by
  refine aside (fun w => ?_) fun w => ?_ <;>
    obtain ⟨journal, hfill⟩ := w.exists_fillIn wiring place kind answer <;> simp only [hfill]

theorem ask (wiring : Wiring) (request : SceneRequest) (answer : Playback)
    (sequel : Option Sequel) :
    Prolongs (·.ask wiring request answer sequel) (·.ask wiring request answer sequel) := by
  have hhand : Prolongs (·.hand request answer sequel) (·.hand request answer sequel) :=
    aside (fun _ => rfl) fun _ => rfl
  exact (hhand.andThen (note _)).andThen (log wiring _)

theorem redeem (token : Nat) : Prolongs (·.redeem token) (·.redeem token) := by
  have hspend : Prolongs (·.spend token .resumed) (·.spend token .resumed) :=
    aside (fun _ => rfl) fun _ => rfl
  refine (hspend.andThen (note _)).andThen (count ?_)
  exact fun _ => rfl

theorem lapse (token : Nat) : Prolongs (·.lapse token) (·.lapse token) := by
  have hspend : Prolongs (·.spend token .lapsed) (·.spend token .lapsed) :=
    aside (fun _ => rfl) fun _ => rfl
  exact hspend.andThen (note _)

/-! ## Calls and scenes -/

/-- A resumption, if the sequels that are run are prolonged. -/
theorem resume {follow follow' : Sequel → Option (World → World)}
    (hfollow : ∀ q, Option.Rel Prolongs (follow q) (follow' q)) (token : Nat) :
    Prolongs (World.resume follow token) (World.resume follow' token) := by
  intro w
  unfold World.resume
  cases w.tokens[token]? with
  | none => exact refl w
  | some t =>
      simp only
      split
      · have hsequel : Option.Rel Prolongs (t.sequel.bind follow) (t.sequel.bind follow') := by
          cases t.sequel with
          | none => exact .none
          | some q => exact hfollow q
        rcases rel_cases hsequel with ⟨hrun, hrun'⟩ | ⟨run, run', hrun, hrun', hprolongs⟩
        · rw [hrun, hrun']
          exact lapse token w
        · rw [hrun, hrun']
          exact (redeem token).andThen hprolongs w
      · exact note (.resumed token .ignored) w

section Calls

variable {wiring : Wiring} {revive revive' : Nat → World → World}
variable (hrevive : ∀ token, Prolongs (revive token) (revive' token))

include hrevive

theorem carry (a : Act) : Prolongs (a.carry revive) (a.carry revive') := by
  cases a with
  | change f => exact changeGame f
  | park token => exact aside (fun _ => rfl) fun _ => rfl
  | keep token => exact aside (fun _ => rfl) fun _ => rfl
  | resume token => exact hrevive token

theorem carryOut (acts : List Act) :
    Prolongs (World.carryOut revive acts) (World.carryOut revive' acts) := by
  induction acts with
  | nil => exact refl
  | cons a rest ih => exact (carry hrevive a).andThen ih

theorem perform (x : Effect) :
    Confirms (World.perform wiring revive x) (World.perform wiring revive' x) := by
  intro w
  have hcalled := note (.called (.effect x (wiring.receiver.accepts w x)))
  have hacts := carryOut hrevive (wiring.receiver.acts w (.effect x))
  have hlogged := log wiring (.effect x (wiring.receiver.accepts w x))
  -- a taking is written down after what is done about it, everything else before
  have hafter := ((hcalled.andThen hacts).andThen hlogged).answer (wiring.receiver.accepts w x) w
  have hbefore := ((hcalled.andThen hlogged).andThen hacts).answer (wiring.receiver.accepts w x) w
  cases x <;> first | exact hafter | exact hbefore

theorem performAll (effects : List Effect) :
    Confirms (World.performAll wiring revive effects) (World.performAll wiring revive' effects) := by
  induction effects with
  | nil => exact refl.answer false
  | cons x rest ih =>
      exact (perform hrevive x).andThen fun accepted => ih.map (accepted || ·)

/-- A scene, if the resumptions of its token are prolonged. -/
theorem playScene {own own' : World → World} (hown : Prolongs own own') (request : SceneRequest)
    (sequel : Option Sequel) :
    Confirms (World.playScene wiring revive request sequel own)
      (World.playScene wiring revive' request sequel own') := by
  intro w
  have hresume : ∀ token, Prolongs
      (fun v => if token = w.tokens.length then own v else revive token v)
      (fun v => if token = w.tokens.length then own' v else revive' token v) := by
    intro token
    split
    · exact hown
    · exact hrevive token
  have hasked := ask wiring request (wiring.receiver.answer w request) sequel
  have hacts := carryOut hresume (wiring.receiver.acts w (.scene w.tokens.length request))
  have hfilled := fillIn wiring w.journal.length request.kind (wiring.receiver.answer w request)
  exact ((hasked.andThen hacts).andThen hfilled).answer (wiring.receiver.answer w request) w

/-- A scene whose sequel is prolonged. -/
theorem runScene {run run' : World → World} (hrun : Prolongs run run') (request : SceneRequest)
    (sequel : Sequel) :
    Prolongs (World.runScene wiring revive request sequel run)
      (World.runScene wiring revive' request sequel run') := by
  intro w
  have hown : Prolongs (World.resume (fun _ => some run) w.tokens.length)
      (World.resume (fun _ => some run') w.tokens.length) :=
    resume (fun _ => .some hrun) w.tokens.length
  have hplay : Confirms (World.playScene wiring revive request (some sequel) _) _ :=
    playScene hrevive hown request (some sequel)
  -- a scene that is declined is over, and its token is resumed if it was not before
  have hdeclined := (hplay.andRun fun _ => hown).andThen (note (.returned w.tokens.length))
  have hstarted := (hplay.andRun fun _ => refl).andThen (note (.returned w.tokens.length))
  have hanswer :
      (World.playScene wiring revive' request (some sequel)
        (World.resume (fun _ => some run') w.tokens.length) w).1 =
      (World.playScene wiring revive request (some sequel)
        (World.resume (fun _ => some run) w.tokens.length) w).1 := rfl
  unfold World.runScene
  simp only
  rw [hanswer]
  split
  · exact hdeclined w
  · exact hstarted w

end Calls

/-! ## Actions -/

theorem conditionsHold (e : Engine) (cs : List Condition) (s : SessionState) :
    Prolongs (fun w => (e.conditionsHold cs s w).2) (fun w => (e.conditionsHold cs s w).2) :=
  same (fun _ => Nat.le_refl _) fun _ => List.suffix_rfl

theorem triggerMatches (e : Engine) (t : Trigger) (p : Payload) (s : SessionState) :
    Prolongs (fun w => (e.triggerMatches t p s w).2) (fun w => (e.triggerMatches t p s w).2) :=
  same (fun _ => Nat.le_refl _) fun _ => List.suffix_rfl

end Prolongs

namespace Engine

/-- The limit has no say in conditions. -/
theorem conditionsHold_withDepth (e : Engine) (limit : UInt32) :
    (e.withDepth limit).conditionsHold = e.conditionsHold :=
  rfl

/-- Nor in triggers. -/
theorem triggerMatches_withDepth (e : Engine) (limit : UInt32) :
    (e.withDepth limit).triggerMatches = e.triggerMatches :=
  rfl

/-- What follows a scene reads a snapshot of its own. -/
theorem continueWith_prolongs {e e' : Engine} {wiring : Wiring} {reach reach' : Reach}
    {actions : List Action}
    (h : ∀ s, Confirms (Action.runAll e wiring reach actions s)
      (Action.runAll e' wiring reach' actions s)) :
    Prolongs (e.continueWith wiring reach actions) (e'.continueWith wiring reach' actions) := by
  intro w hw
  obtain ⟨hfirst, hsame⟩ := h w.game.state w hw
  exact ⟨hfirst, congrArg Prod.snd hsame⟩

end Engine

namespace Action

variable {e : Engine} {wiring : Wiring} {reach reach' : Reach}

/-- A scene with actions to follow. -/
theorem scene_confirms (limit : UInt32) (hreach : reach.Roomier reach') (request : SceneRequest)
    {onComplete : List Action}
    (h : ∀ s, Confirms (runAll e wiring reach onComplete s)
      (runAll (e.withDepth limit) wiring reach' onComplete s)) :
    Confirms
      (fun w => (true, w.started.runScene wiring reach.revive request ⟨e.serial, onComplete⟩
        (e.continueWith wiring reach onComplete)))
      (fun w => (true, w.started.runScene wiring reach'.revive request ⟨e.serial, onComplete⟩
        ((e.withDepth limit).continueWith wiring reach' onComplete))) :=
  (Prolongs.started.andThen
    (.runScene hreach.revive (Engine.continueWith_prolongs h) request _)).answer true

mutual

/-- An engine with another limit confirms an action if it has more room. -/
theorem run_confirms (limit : UInt32) (hreach : reach.Roomier reach') (a : Action)
    (s : SessionState) :
    Confirms (run e wiring reach a s) (run (e.withDepth limit) wiring reach' a s) := by
  intro w
  cases a with
  | deed d =>
      rw [run, run]
      exact Prolongs.started.andAnswer (Prolongs.performAll hreach.revive d.effects) w
  | branch test thenDo elseDo =>
      have htest := Prolongs.started.andThen (.conditionsHold e [test] s)
      rw [run, run]
      rw [Engine.conditionsHold_withDepth]
      simp only
      split
      · exact htest.andAnswer (runAll_confirms limit hreach thenDo s) w
      · exact htest.andAnswer (runAll_confirms limit hreach elseDo s) w
  | playCinematic scene onComplete =>
      rcases scene with _ | scene
      · rw [run, run]
        exact Prolongs.started.andAnswer (runAll_confirms limit hreach onComplete s) w
      · rw [run, run]
        exact scene_confirms limit hreach _ (runAll_confirms limit hreach onComplete) w
  | systemTutorial scene context onComplete =>
      rw [run, run]
      exact scene_confirms limit hreach _ (runAll_confirms limit hreach onComplete) w
  | playerAction action item =>
      rcases action with _ | action
      · rw [run, run]
        exact Prolongs.started.answer false w
      · rw [run, run]
        exact Prolongs.started.andAnswer (hreach.raise (.playerAction action item)) w
  | unknown type =>
      rw [run, run]
      exact Prolongs.started.answer false w

/-- And so it confirms a list of actions. -/
theorem runAll_confirms (limit : UInt32) (hreach : reach.Roomier reach') (actions : List Action)
    (s : SessionState) :
    Confirms (runAll e wiring reach actions s)
      (runAll (e.withDepth limit) wiring reach' actions s) := by
  intro w
  cases actions with
  | nil =>
      rw [runAll, runAll]
      exact Prolongs.refl.answer false w
  | cons a rest =>
      rw [runAll, runAll]
      exact (run_confirms limit hreach a s).andThen
        (fun took => (runAll_confirms limit hreach rest s).map (took || ·)) w

end

end Action

/-! ## Dispatching -/

namespace Engine

variable {e : Engine} {wiring : Wiring} {reach reach' : Reach} {limit : UInt32}

section Candidates

variable (limit) (hreach : reach.Roomier reach')

include hreach

/-- Events are announced with as much room. -/
theorem announce_prolongs (event : Event) :
    Prolongs (announce wiring reach.revive event) (announce wiring reach'.revive event) := by
  have hcounted : Prolongs (·.count fun n => { n with eventsFired := n.eventsFired + 1 })
      (·.count fun n => { n with eventsFired := n.eventsFired + 1 }) := .count fun _ => rfl
  have hcalled : Prolongs
      (fun w => (World.perform wiring reach.revive (.eventCompleted event.id) w).2)
      (fun w => (World.perform wiring reach'.revive (.eventCompleted event.id) w).2) :=
    (Prolongs.perform hreach.revive (.eventCompleted event.id)).andRun fun _ => .refl
  intro w
  unfold announce
  simp only
  split
  · exact ((Prolongs.changeGame event.record).andThen hcalled).andThen hcounted w
  · exact (Prolongs.changeGame event.record).andThen hcounted w

/-- The actions of a candidate, from its start to its landing. -/
theorem fly_confirms (s : SessionState) (c : Candidate) :
    Confirms (e.fly wiring reach s c) ((e.withDepth limit).fly wiring reach' s c) := by
  have hbegun : Prolongs (begin c) (begin c) :=
    .same (fun _ => Nat.le_refl _) fun _ => List.suffix_cons _ _
  have hlanded : Prolongs (·.land c.position) (·.land c.position) :=
    .aside (fun _ => rfl) fun _ => rfl
  have hrun : Confirms (Action.runAll e wiring reach c.event.actions s) _ :=
    Action.runAll_confirms limit hreach c.event.actions s
  exact (hbegun.andAnswer hrun).andThen fun took => hlanded.answer took

/-- **Whatever is decided about a candidate is confirmed.** -/
theorem rule_confirms (s : SessionState) (payload : Payload) (ran : Bool) (c : Candidate) :
    Confirms (e.rule wiring reach s payload ran c)
      ((e.withDepth limit).rule wiring reach' s payload ran c) := by
  have hskipped : Prolongs (·.count fun n => { n with cyclesSkipped := n.cyclesSkipped + 1 })
      (·.count fun n => { n with cyclesSkipped := n.cyclesSkipped + 1 }) := .count fun _ => rfl
  have hholds := Prolongs.conditionsHold e c.event.conditions s
  have hmatch := hholds.andThen (.triggerMatches e c.event.trigger payload s)
  have hverdict : ∀ took : Bool, Confirms
      (fun v => if took then (Verdict.fired, announce wiring reach.revive c.event v)
        else (.noEffect, v))
      (fun v => if took then (Verdict.fired, announce wiring reach'.revive c.event v)
        else (.noEffect, v)) := by
    intro took
    cases took with
    | true => exact (announce_prolongs hreach c.event).answer Verdict.fired
    | false => exact Prolongs.refl.answer Verdict.noEffect
  have hflown : Confirms (e.fly wiring reach s c) _ := fly_confirms limit hreach s c
  have hfly := hflown.andThen hverdict
  intro w
  rw [rule, rule]
  rw [conditionsHold_withDepth, triggerMatches_withDepth]
  simp only
  -- both runs take the same way through the checks
  split
  · exact Prolongs.refl.answer Verdict.completed w
  split
  · exact hskipped.answer Verdict.inFlight w
  split
  · exact hholds.answer Verdict.failsConditions w
  split
  · exact hmatch.answer Verdict.failsTrigger w
  split
  · exact hmatch.answer Verdict.completed w
  · exact hmatch.andAnswer hfly w

end Candidates

/-- So are the rulings of a sweep. -/
theorem sweep_confirms {decide decide' : Bool → Candidate → World → Verdict × World}
    (hdecide : ∀ ran c, Confirms (decide ran c) (decide' ran c)) (ran : Bool)
    (cs : List Candidate) : Confirms (sweep decide ran cs) (sweep decide' ran cs) := by
  induction cs generalizing ran with
  | nil => exact Prolongs.refl.answer []
  | cons c rest ih =>
      exact (hdecide ran c).andThen fun verdict =>
        (ih (ran || verdict.isExecuted)).map ((c.event.id, verdict) :: ·)

/-- **A dispatch that ends unhindered is confirmed under a higher limit**: it was let in, and so it
is there. -/
theorem dispatch_confirms (hlimit : e.config.dispatch.maxDepth ≤ limit)
    (hreach : reach.Roomier reach') (t : String) (payload : Payload) :
    Confirms (e.dispatch wiring reach t payload)
      ((e.withDepth limit).dispatch wiring reach' t payload) := by
  intro w
  by_cases hfull : e.config.dispatch.maxDepth ≤ w.depth
  · intro hw
    rw [dispatch, if_pos hfull] at hw
    exact absurd hw.admitted (Nat.succ_ne_zero _)
  · have hroom : ¬ (e.withDepth limit).config.dispatch.maxDepth ≤ w.depth :=
      fun h => hfull (UInt32.le_trans hlimit h)
    have hopened : Prolongs openDispatch openDispatch :=
      .same (fun _ => Nat.le_refl _) fun _ => List.suffix_cons _ _
    have hrule : ∀ ran c, Confirms (e.rule wiring reach (openDispatch w).game.state payload ran c)
        ((e.withDepth limit).rule wiring reach' (openDispatch w).game.state payload ran c) :=
      rule_confirms limit hreach (openDispatch w).game.state payload
    have hsweep := sweep_confirms hrule false (e.catalog.candidates t)
    have hleft : Prolongs World.leave World.leave := .aside (fun _ => rfl) fun _ => rfl
    rw [dispatch, dispatch, if_neg hfull, if_neg hroom]
    exact (hopened.andAnswer hsweep).andThen
      (fun rulings => hleft.answer (Report.mk t false rulings)) w

/-- A sequel that the engine runs is prolonged, and the others nobody runs. -/
theorem follow_roomier (limit : UInt32) (hreach : reach.Roomier reach') (q : Sequel) :
    Option.Rel Prolongs (e.follow wiring reach q) ((e.withDepth limit).follow wiring reach' q) := by
  have hserial : (e.withDepth limit).serial = e.serial := rfl
  rw [follow, follow, hserial]
  split
  · exact .some (continueWith_prolongs (Action.runAll_confirms limit hreach q.actions))
  · exact .none

/-! ## The clock -/

/-- **More room at every nested call**: with a higher limit and a clock that is not shorter. -/
theorem reach_roomier (hlimit : e.config.dispatch.maxDepth ≤ limit) {k k' : Nat} (hk : k ≤ k') :
    (e.reach wiring k).Roomier ((e.withDepth limit).reach wiring k') := by
  induction k generalizing k' with
  | zero =>
      -- whatever an empty clock does is a hindrance
      have hstalled : ∀ w : World, ¬ (w.note .stalled).Unhindered :=
        fun w hw => hw.isLive _ List.mem_cons_self rfl
      exact ⟨fun _ w hw => absurd hw (hstalled w), fun _ w hw => absurd hw (hstalled w)⟩
  | succ k ih =>
      obtain ⟨k', rfl⟩ : ∃ n, k' = n + 1 := ⟨k' - 1, by omega⟩
      have hinner := ih (Nat.le_of_succ_le_succ hk)
      constructor
      · exact fun payload => (dispatch_confirms hlimit hinner raisedType payload).map Report.anyFired
      · exact fun token => .resume (follow_roomier limit hinner) token

theorem outlets_roomier (wiring : Wiring) (hlimit : e.config.dispatch.maxDepth ≤ limit) :
    (e.outlets wiring).Roomier ((e.withDepth limit).outlets wiring) := by
  have hclock : e.clock wiring ≤ (e.withDepth limit).clock wiring := by
    have hle := UInt32.le_iff_toNat_le.1 hlimit
    simp only [clock, withDepth, EngineConfig.withDepth]
    omega
  exact reach_roomier hlimit hclock

section Settings

variable (wiring) (hlimit : e.config.dispatch.maxDepth ≤ limit)

include hlimit

theorem handle_confirms (t : String) (payload : Payload) :
    Confirms (e.handle wiring t payload) ((e.withDepth limit).handle wiring t payload) :=
  dispatch_confirms hlimit (outlets_roomier wiring hlimit) t payload

theorem report_confirms (o : Occurrence) :
    Confirms (e.report wiring o) ((e.withDepth limit).report wiring o) := by
  have hprepared : Prolongs o.prepare o.prepare := by
    unfold Occurrence.prepare
    refine .aside (fun w => ?_) fun w => ?_ <;> split <;> rfl
  exact hprepared.andAnswer (handle_confirms wiring hlimit o.triggerType o.payload)

theorem execute_confirms (actions : List Action) (s : SessionState) :
    Confirms (e.execute wiring actions s) ((e.withDepth limit).execute wiring actions s) :=
  Action.runAll_confirms limit (outlets_roomier wiring hlimit) actions s

theorem perform_confirms (actions : List Action) :
    Confirms (e.perform wiring actions) ((e.withDepth limit).perform wiring actions) :=
  fun w => execute_confirms wiring hlimit actions w.game.state w

end Settings

end Engine

/-! ## Moves of the host -/

/-- The same engine, or one with a higher limit. -/
def Engine.Roomier (e e' : Engine) : Prop :=
  ∃ limit, e.config.dispatch.maxDepth ≤ limit ∧ e' = e.withDepth limit

/-- A play that differs from another one in the limit of its engine only, which is not lower. -/
inductive Play.Roomier (p : Play) : Play → Prop where
  | mk {engine : Option Engine} (h : Option.Rel Engine.Roomier p.engine engine) :
      Roomier p { p with engine }

/-- Corresponding moves: the same, or both start an engine and the second one has a limit that is
not lower. -/
inductive Move.Roomier : Move → Move → Prop where
  | same (m : Move) : Roomier m m
  | restart (catalog : Catalog) {config : EngineConfig} {limit : UInt32}
      (h : config.dispatch.maxDepth ≤ limit) :
      Roomier (.restart catalog config) (.restart catalog (config.withDepth limit))

theorem Engine.Roomier.refl (e : Engine) : e.Roomier e :=
  ⟨e.config.dispatch.maxDepth, UInt32.le_refl _, rfl⟩

namespace Play.Roomier

variable {p q : Play}

theorem refl (p : Play) : p.Roomier p := by
  refine .mk ?_
  cases p.engine with
  | none => exact .none
  | some e => exact .some (.refl e)

/-- Between moves a resumption is prolonged. -/
theorem resume (h : p.Roomier q) (token : Nat) : Prolongs (p.resume token) (q.resume token) := by
  obtain ⟨hengine⟩ := h
  refine .resume (fun sequel => rel_bind hengine ?_) token
  rintro e _ ⟨limit, hlimit, rfl⟩
  exact Engine.follow_roomier limit (Engine.outlets_roomier p.wiring hlimit) sequel

/-- What an engine is asked for is confirmed if it is so in every world. -/
theorem withEngine (h : p.Roomier q) {act : Engine → World → Answer × World}
    (hact : ∀ {e limit}, e.config.dispatch.maxDepth ≤ limit →
      Confirms (act e) (act (e.withDepth limit)))
    (hw : (p.withEngine act).2.world.Unhindered) :
    (q.withEngine act).1 = (p.withEngine act).1 ∧
      (p.withEngine act).2.Roomier (q.withEngine act).2 := by
  obtain ⟨engine, wiring, world, engines⟩ := p
  obtain ⟨hengine⟩ := h
  cases hengine with
  | none => exact ⟨rfl, .mk .none⟩
  | some hroomier =>
      obtain ⟨limit, hlimit, rfl⟩ := hroomier
      obtain ⟨-, hsame⟩ := hact hlimit world hw
      simp only [Play.withEngine, hsame]
      exact ⟨trivial, .mk (.some ⟨limit, hlimit, rfl⟩)⟩

/-- Plays that have lost their engines do not differ. -/
theorem dropEngine (h : p.Roomier q) : q.dropEngine = p.dropEngine := by
  obtain ⟨engine, wiring, world, engines⟩ := p
  obtain ⟨hengine⟩ := h
  cases hengine with
  | none => rfl
  | some hroomier =>
      obtain ⟨limit, -, rfl⟩ := hroomier
      rfl

/-- An engine that is started has the limit that is asked for, whatever was there before. -/
theorem restart (h : p.Roomier q) (catalog : Catalog) {config config' : EngineConfig}
    (hengine : ∀ serial, Engine.Roomier ⟨catalog, config, serial⟩ ⟨catalog, config', serial⟩) :
    (p.restart catalog config).Roomier (q.restart catalog config') := by
  unfold Play.restart
  rw [h.dropEngine]
  exact .mk (.some (hengine _))

/-- The oldest parked scene comes to the same end. -/
theorem finishScene (h : p.Roomier q) (hw : p.finishScene.2.Unhindered) :
    q.finishScene = p.finishScene := by
  have hresume := h.resume
  obtain ⟨hengine⟩ := h
  unfold Play.finishScene at hw ⊢
  simp only at hw ⊢
  split
  · rfl
  · next token rest hqueue =>
      simp only [hqueue] at hw
      split
      · next t ht =>
          simp only [ht] at hw
          rw [(hresume token _ hw).2]
      · rfl

/-- **Whatever the host does, the play with more room follows** as long as the other one is not
hindered. -/
theorem move (h : p.Roomier q) {m m' : Move} (hm : m.Roomier m')
    (hw : (p.move m).2.world.Unhindered) :
    (q.move m').1 = (p.move m).1 ∧ (p.move m).2.Roomier (q.move m').2 := by
  cases hm with
  | restart catalog hlimit => exact ⟨rfl, h.restart catalog fun _ => ⟨_, hlimit, rfl⟩⟩
  | same =>
      obtain ⟨hengine⟩ := h
      have h : p.Roomier _ := .mk hengine
      cases m with
      | trigger type payload =>
          exact h.withEngine (fun hlimit =>
            (Engine.handle_confirms p.wiring hlimit type payload).map Answer.report) hw
      | occur o =>
          exact h.withEngine (fun hlimit =>
            (Engine.report_confirms p.wiring hlimit o).map Answer.report) hw
      | perform actions =>
          exact h.withEngine (fun hlimit =>
            (Engine.perform_confirms p.wiring hlimit actions).map Answer.took) hw
      | execute actions s =>
          exact h.withEngine (fun hlimit =>
            (Engine.execute_confirms p.wiring hlimit actions s).map Answer.took) hw
      | finishScene =>
          have hsame := h.finishScene hw
          simp only [Play.move, hsame]
          exact ⟨trivial, .mk hengine⟩
      | resumeKept index =>
          unfold Play.move at hw ⊢
          simp only at hw ⊢
          split
          · next token hkept =>
              simp only [hkept] at hw
              rw [(h.resume token _ hw).2]
              exact ⟨rfl, .mk hengine⟩
          · exact ⟨rfl, h⟩
      | dropEngine =>
          have hdropped := h.dropEngine
          unfold Play.move
          rcases rel_cases hengine with ⟨hp, rfl⟩ | ⟨e, e', hp, rfl, -⟩
          · simp only [hp]
            exact ⟨trivial, h⟩
          · simp only [hp, hdropped]
            exact ⟨trivial, .refl _⟩
      | restart catalog config => exact ⟨rfl, h.restart catalog fun _ => .refl _⟩
      | rewire | setState | setRoom | markEvent => exact ⟨rfl, .mk hengine⟩
      | effect x =>
          have hsame := (Prolongs.perform h.resume x p.world hw).2
          simp only [Play.move, hsame]
          exact ⟨trivial, .mk hengine⟩
      | scene request =>
          have hplay : Confirms (World.playScene p.wiring p.resume request none _) _ :=
            Prolongs.playScene h.resume (h.resume p.world.tokens.length) request none
          have hsame := (hplay p.world hw).2
          simp only [Play.move, Play.playScene, hsame]
          exact ⟨trivial, .mk hengine⟩

/-- The worlds of two such plays are the same. -/
theorem world (h : p.Roomier q) : q.world = p.world := by
  obtain ⟨-⟩ := h
  rfl

/-- **Whatever the host does one after the other, the play with more room follows** if the other one
is hindered nowhere. -/
theorem proceed {steps steps' : List HostStep}
    (hsteps : List.Forall₂ (HostStep.Fits Move.Roomier) steps steps') (h : p.Roomier q)
    (hw : ∀ before, before <+: steps → (p.proceed before).play.world.Unhindered) :
    (q.proceed steps').answers = (p.proceed steps).answers ∧
      (q.proceed steps').taken = (p.proceed steps).taken ∧
      (p.proceed steps).play.Roomier (q.proceed steps').play := by
  induction hsteps generalizing p q with
  | nil => exact ⟨rfl, rfl, h⟩
  | @cons step _ rest _ hstep _ ih =>
      have hlater : ∀ before, before <+: rest →
          (p.proceed (step :: before)).play.world.Unhindered :=
        fun before hbefore => hw _ (List.cons_prefix_cons.2 ⟨rfl, hbefore⟩)
      cases hstep with
      | move hm =>
          obtain ⟨hanswer, hnext⟩ := h.move hm (hlater [] List.nil_prefix)
          obtain ⟨hanswers, htaken, hlast⟩ := ih hnext hlater
          exact ⟨congrArg₂ List.cons hanswer hanswers, htaken, hlast⟩
      | drain =>
          obtain ⟨hengine⟩ := h
          have hnext : p.drain.2.Roomier { p.drain.2 with engine := _ } := .mk hengine
          obtain ⟨hanswers, htaken, hlast⟩ := ih hnext hlater
          exact ⟨hanswers, congrArg (p.world.journal ++ ·) htaken, hlast⟩

end Play.Roomier

/-- **With direct receivers no run is ever stalled**, whatever engines are started in it. -/
theorem Play.isLive_proceed {wiring : Wiring} {steps : List HostStep}
    (hdirect : wiring.receiver.IsDirect)
    (hsteps : ∀ wiring, .move (.rewire wiring) ∈ steps → wiring.receiver.IsDirect)
    (catalog : Catalog) (config : EngineConfig) (state : SessionState) :
    ((Play.start catalog config wiring state).proceed steps).play.world.IsLive := by
  have hstart : (Play.start catalog config wiring state).Ready (fun _ => True)
      (·.receiver.IsDirect) := .start trivial @hdirect state
  have hmoves : ∀ m, .move m ∈ steps →
      m.Within (fun _ => True) (·.receiver.IsDirect) fun _ => True := by
    intro m hm
    exact ⟨fun _ _ => trivial, fun hrewire => hsteps _ (hrewire ▸ hm), fun _ _ => trivial⟩
  have hmove : ∀ {p : Play} {m : Move}, p.Ready (fun _ => True) (·.receiver.IsDirect) →
      p.world.IsLive → (p.move m).2.world.IsLive := by
    intro p m hp hu
    have hp' : p.wiring.receiver.IsDirect := hp.wiring
    exact Play.isLive_move hp' hp.depth hp.inFlight hu m
  have hrun := hstart.proceed (P := fun u v => u.IsLive → v.IsLive) (fun _ hu => hu)
    (fun h h' hu => h' (h hu)) (fun _ hu => hu) (fun hp _ => hmove hp) hmoves
  exact hrun.2 fun _ hm => absurd hm List.not_mem_nil

/-- **The depth limit can be observed through refusals only.** Take two hosts that do the same from
the same start on, with settings that differ in the limit on nested dispatches only, at the start
and whenever an engine is started again, and let the second limits not be lower than the first. If
the engines of the first host never refuse a dispatch, as their counter tells at every point of the
run, the second host gets the same answers to all moves and the same entries whenever it reads the
journal, and it comes to the same world: the same game, the same journal, tokens and counters, and
the same trace.

This holds with every session, and with every receiver that resumes nothing but the token of a
scene. Others it covers as long as they do not nest resumptions deeper than they said they would. -/
theorem higher_limit_is_unnoticed {config : EngineConfig} {limit : UInt32}
    (hlimit : config.dispatch.maxDepth ≤ limit) {steps steps' : List HostStep}
    (hsteps : List.Forall₂ (HostStep.Fits Move.Roomier) steps steps') (catalog : Catalog)
    (wiring : Wiring) (state : SessionState)
    (hadmitted : ∀ before, before <+: steps →
      ((Play.start catalog config wiring state).proceed before).play.world.counters.depthLimitHits
        = 0)
    (hends : (wiring.receiver.IsDirect ∧
        ∀ wiring, .move (.rewire wiring) ∈ steps → wiring.receiver.IsDirect) ∨
      ∀ before, before <+: steps →
        ((Play.start catalog config wiring state).proceed before).play.world.IsLive) :
    let r := (Play.start catalog config wiring state).proceed steps
    let r' := (Play.start catalog (config.withDepth limit) wiring state).proceed steps'
    r'.answers = r.answers ∧ r'.taken = r.taken ∧ r'.play.world = r.play.world := by
  intro r r'
  have hlive : ∀ before, before <+: steps →
      ((Play.start catalog config wiring state).proceed before).play.world.IsLive := by
    rcases hends with ⟨hdirect, hrewire⟩ | hlive
    · intro before hbefore
      exact Play.isLive_proceed hdirect (fun w hw => hrewire w (hbefore.subset hw)) _ _ _
    · exact hlive
  have hstart : (Play.start catalog config wiring state).Roomier
      (Play.start catalog (config.withDepth limit) wiring state) :=
    .mk (.some ⟨limit, hlimit, rfl⟩)
  obtain ⟨hanswers, htaken, hlast⟩ :=
    hstart.proceed hsteps fun before h => ⟨hadmitted before h, hlive before h⟩
  exact ⟨hanswers, htaken, hlast.world⟩

/-- Somebody serves, the ball is returned, and the point is cheered once it has been shown. -/
def volley : List Event :=
  let hears (id action : String) (actions : List Action) : Event :=
    { id, trigger := .ofAuthored { type := "player_action", action := some action },
      conditions := [], actions, repeatable := true }
  [hears "serve" "serve" [.playerAction (some "return") none],
   hears "return" "return"
     [.playCinematic (some "point") [.playerAction (some "cheer") none]],
   hears "cheer" "cheer" [.deed (.giveXp (some 5))]]

/-- A session that leaves scenes to the host, under an engine with a limit. -/
def court (c : Catalog) (limit : UInt32) : Play :=
  .start c (EngineConfig.withDepth {} limit) ⟨.session .park, true⟩ {}

/-- Two volleys, the second one under a new engine. -/
def twoVolleys (c : Catalog) (limit : UInt32) : List HostStep :=
  let serve : HostStep := .move (.occur (.playerAction "serve" none))
  [serve, .move .finishScene, .move (.restart c (EngineConfig.withDepth {} limit)), serve,
    .move .finishScene, .drain]

/-- As the host ends the scenes, the cheering is not nested, and a limit of two is as good as any
other. -/
theorem volley_fits_two : ∃ c, Catalog.ofEvents volley = .ok c ∧
    let r := (court c 2).proceed (twoVolleys c 2)
    let r' := (court c 8).proceed (twoVolleys c 5)
    r.play.world.game.progress.xp = 10 ∧ r'.answers = r.answers ∧ r'.taken = r.taken ∧
      r'.play.world = r.play.world := by
  have hsteps : ∀ c, List.Forall₂ (HostStep.Fits Move.Roomier) (twoVolleys c 2)
      (twoVolleys c 5) := by
    intro c
    have hsame : ∀ m, HostStep.Fits Move.Roomier (.move m) (.move m) := fun m => .move (.same m)
    have hrestart : HostStep.Fits Move.Roomier
        (.move (.restart c (EngineConfig.withDepth {} 2)))
        (.move (.restart c (EngineConfig.withDepth {} 5))) := .move (.restart c (by decide))
    exact .cons (hsame _) (.cons (hsame _) (.cons hrestart (.cons (hsame _) (.cons (hsame _)
      (.cons .drain .nil)))))
  have hrewire : ∀ c wiring, .move (.rewire wiring) ∈ twoVolleys c 2 →
      wiring.receiver.IsDirect := by
    simp [twoVolleys]
  have hunnoticed : ∀ c, (∀ before ∈ (twoVolleys c 2).inits,
        ((court c 2).proceed before).play.world.counters.depthLimitHits = 0) →
      ((court c 8).proceed (twoVolleys c 5)).answers =
          ((court c 2).proceed (twoVolleys c 2)).answers ∧
        ((court c 8).proceed (twoVolleys c 5)).taken =
          ((court c 2).proceed (twoVolleys c 2)).taken ∧
        ((court c 8).proceed (twoVolleys c 5)).play.world =
          ((court c 2).proceed (twoVolleys c 2)).play.world := by
    intro c hadmitted
    exact higher_limit_is_unnoticed (by decide) (hsteps c) c _ _
      (fun before hbefore => hadmitted before ((List.mem_inits _ _).2 hbefore))
      (.inl ⟨Receiver.isDirect_session .park, hrewire c⟩)
  exact ⟨_, rfl, by decide +kernel, hunnoticed _ (by decide +kernel)⟩

end Narrative
