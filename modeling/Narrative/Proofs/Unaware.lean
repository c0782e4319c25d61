import Mathlib.Data.List.Forall2
import Narrative.Proofs.Law

set_option autoImplicit false

/-!
# Two runs in related worlds

To show that two runs come to the same, relate the worlds they go through and show that the
relation survives whatever a run consists of (`Carries`, `Matches`).

Two inductions are shared by all comparisons. Receivers that cannot tell related worlds apart act
alike, so calls, scenes and resumptions come to the same if what happens inside them does
(`Unaware`). And the same action list comes to the same if its tests, calls and scenes do
(`Acting.runAll`).
-/

namespace Narrative

/-! ## Relations between runs -/

/-- Counters with other counts added to them. -/
def Counters.plus (n more : Counters) : Counters where
  dispatches := n.dispatches + more.dispatches
  eventsFired := n.eventsFired + more.eventsFired
  actionsExecuted := n.actionsExecuted + more.actionsExecuted
  continuationsResumed := n.continuationsResumed + more.continuationsResumed
  depthLimitHits := n.depthLimitHits + more.depthLimitHits
  cyclesSkipped := n.cyclesSkipped + more.cyclesSkipped
  unknownEvaluations := n.unknownEvaluations + more.unknownEvaluations

/-- Sets both guards. -/
def World.guard (w : World) (depth : UInt32) (inFlight : List Nat) : World :=
  { w with depth, inFlight }

/-- Two runs take related worlds to related worlds. -/
def Carries (R : World → World → Prop) (run run' : World → World) : Prop :=
  ∀ {u v : World}, R u v → R (run u) (run' v)

/-- Two runs gave the same answer and ended in related worlds. -/
structure Matches {α : Type} (R : World → World → Prop) (x y : α × World) : Prop where
  answer : y.1 = x.1
  world : R x.2 y.2

/-- The ways out of two action lists come to the same. Nothing has to be said of resumptions if the
receiver is direct. -/
structure Reach.Parallel (wiring : Wiring) (R : World → World → Prop) (reach reach' : Reach) :
    Prop where
  raise : ∀ (payload : Payload) {u v : World}, R u v →
    Matches R (reach.raise payload u) (reach'.raise payload v)
  revive : ¬ wiring.receiver.IsDirect →
    ∀ token, Carries R (reach.revive token) (reach'.revive token)

/-- Two sequels of one engine with corresponding actions. -/
structure Sequel.Fits (fits : List Action → List Action → Prop) (q q' : Sequel) : Prop where
  engine : q'.engine = q.engine
  actions : fits q.actions q'.actions

theorem Sequel.Fits.eq {q q' : Sequel} (h : q.Fits Eq q') : q = q' := by
  obtain ⟨engine, actions⟩ := q
  obtain ⟨rfl, rfl⟩ := h
  rfl

/-- An optional sequel corresponds to itself if its actions do. -/
theorem Sequel.fits_self {fits : List Action → List Action → Prop} {sequel : Option Sequel}
    (h : ∀ q, sequel = some q → fits q.actions q.actions) :
    Option.Rel (Sequel.Fits fits) sequel sequel := by
  cases sequel with
  | none => exact .none
  | some q => exact .some ⟨rfl, h q rfl⟩

/-- Two tokens of one scene, both used up or neither, with corresponding sequels. -/
structure SceneToken.Fits (fits : List Action → List Action → Prop) (t t' : SceneToken) :
    Prop where
  request : t'.request = t.request
  status : t'.status = t.status
  sequel : Option.Rel (Sequel.Fits fits) t.sequel t'.sequel

/-- Related lists have related elements, and as many. -/
theorem forall₂_getElem? {α β : Type} {P : α → β → Prop} {xs : List α} {ys : List β}
    (h : List.Forall₂ P xs ys) (i : Nat) : Option.Rel P xs[i]? ys[i]? := by
  induction h generalizing i with
  | nil => exact .none
  | cons hhead _ ih =>
      cases i with
      | zero => exact .some hhead
      | succ i => exact ih i

/-- Of two related options both are empty, or both hold something and this is related. -/
theorem rel_cases {α β : Type} {P : α → β → Prop} {x : Option α} {y : Option β}
    (h : Option.Rel P x y) :
    (x = none ∧ y = none) ∨ ∃ a b, x = some a ∧ y = some b ∧ P a b := by
  cases h with
  | none => exact .inl ⟨rfl, rfl⟩
  | some hab => exact .inr ⟨_, _, rfl, rfl, hab⟩

/-- Related options stay related if what is done with related values gives related options. -/
theorem rel_bind {α β : Type} {P : α → α → Prop} {Q : β → β → Prop} {x y : Option α}
    {f g : α → Option β} (h : Option.Rel P x y)
    (hnext : ∀ {a b : α}, P a b → Option.Rel Q (f a) (g b)) :
    Option.Rel Q (x.bind f) (y.bind g) := by
  cases h with
  | none => exact .none
  | some hab => exact hnext hab

/-! ## What receivers cannot tell -/

/-- Two receivers that do the same in related worlds, and a relation that survives what is done
to the world on their behalf. The tokens of related worlds have corresponding sequels. -/
structure Unaware (wiring wiring' : Wiring) (fits : List Action → List Action → Prop)
    (R : World → World → Prop) : Prop where
  removes : ∀ {u v : World}, R u v → wiring'.receiver.removes v = wiring.receiver.removes u
  answer : ∀ {u v : World}, R u v → wiring'.receiver.answer v = wiring.receiver.answer u
  acts : ∀ {u v : World}, R u v → wiring'.receiver.acts v = wiring.receiver.acts u
  tokens : ∀ {u v : World}, R u v → List.Forall₂ (SceneToken.Fits fits) u.tokens v.tokens
  noted : ∀ x, Carries R (·.note x) (·.note x)
  acted : ∀ {revive revive' : Nat → World → World} (a : Act),
    (∀ token, a = .resume token → Carries R (revive token) (revive' token)) →
    Carries R (a.carry revive) (a.carry revive')
  logged : ∀ entry, Carries R (·.log wiring entry) (·.log wiring' entry)
  /-- An answer is filled in at the end of what the journals were when a scene was asked for. -/
  filled : ∀ {u v : World}, R u v → ∀ kind answer,
    Carries R (·.fillIn wiring u.journal.length kind answer)
      (·.fillIn wiring' v.journal.length kind answer)
  handed : ∀ request answer {sequel sequel' : Option Sequel},
    Option.Rel (Sequel.Fits fits) sequel sequel' →
      Carries R (·.hand request answer sequel) (·.hand request answer sequel')
  redeemed : ∀ token, Carries R (·.redeem token) (·.redeem token)
  lapsed : ∀ token, Carries R (·.lapse token) (·.lapse token)

namespace Unaware

variable {wiring wiring' : Wiring} {fits : List Action → List Action → Prop}
variable {R : World → World → Prop} {u v : World} {revive revive' : Nat → World → World}
variable (blind : Unaware wiring wiring' fits R)

include blind

theorem length_tokens (h : R u v) : v.tokens.length = u.tokens.length :=
  (blind.tokens h).length_eq.symm

/-- A change of the game is made as an act, and no token is resumed by it. -/
theorem changed (f : Game → Game) : Carries R (·.changeGame f) (·.changeGame f) := by
  have hchange : Carries R (Act.carry (fun _ => id) (.change f))
      (Act.carry (fun _ => id) (.change f)) := blind.acted (.change f) fun _ h => by cases h
  exact fun {_ _} h => hchange h

theorem accepts (h : R u v) (x : Effect) :
    wiring'.receiver.accepts v x = wiring.receiver.accepts u x := by
  cases x <;> simp only [Receiver.accepts, blind.removes h]

/-- A resumption comes to the same if corresponding sequels do. -/
theorem resume {follow follow' : Sequel → Option (World → World)}
    (hfollow : ∀ {q q' : Sequel}, q.Fits fits q' →
      Option.Rel (Carries R) (follow q) (follow' q'))
    (token : Nat) : Carries R (·.resume follow token) (·.resume follow' token) := by
  intro u v h
  simp only [World.resume]
  rcases rel_cases (forall₂_getElem? (blind.tokens h) token) with
    ⟨hu, hv⟩ | ⟨t, t', hu, hv, ht⟩
  · simp only [hu, hv]
    exact h
  · simp only [hu, hv, ht.status]
    split
    · rcases rel_cases (rel_bind ht.sequel hfollow) with
        ⟨hrun, hrun'⟩ | ⟨run, run', hrun, hrun', hcarries⟩
      · simp only [hrun, hrun']
        exact blind.lapsed token h
      · simp only [hrun, hrun']
        exact hcarries (blind.redeemed token h)
    · exact blind.noted _ h

theorem carryOut {acts : List Act}
    (hresume : ∀ token, .resume token ∈ acts → Carries R (revive token) (revive' token)) :
    Carries R (·.carryOut revive acts) (·.carryOut revive' acts) := by
  intro u v h
  induction acts generalizing u v with
  | nil => exact h
  | cons a rest ih =>
      have hfirst : Carries R (a.carry revive) (a.carry revive') :=
        blind.acted a fun token ha => hresume token (ha ▸ List.mem_cons_self)
      exact ih (fun token ha => hresume token (List.mem_cons_of_mem a ha)) (hfirst h)

section Calls

variable (hrevive : ¬ wiring.receiver.IsDirect →
  ∀ token, Carries R (revive token) (revive' token))

include hrevive

/-- A call for an effect comes to the same. -/
theorem perform (x : Effect) (h : R u v) :
    Matches R (u.perform wiring revive x) (v.perform wiring' revive' x) := by
  have hnoted := blind.noted (.called (.effect x (wiring.receiver.accepts u x))) h
  -- a taking is written down after what is done about it, everything else before
  have hacts : ∀ token, .resume token ∈ wiring.receiver.acts u (.effect x) →
      Carries R (revive token) (revive' token) := by
    intro token htoken
    refine hrevive (fun hdirect => ?_) token
    obtain ⟨_, hcall⟩ := hdirect htoken
    cases hcall
  have hafter := fun entry => blind.logged entry (blind.carryOut hacts hnoted)
  have hbefore := fun entry => blind.carryOut hacts (blind.logged entry hnoted)
  cases x <;> simp only [World.perform, blind.accepts h, blind.acts h] <;>
    first | exact ⟨rfl, hafter _⟩ | exact ⟨rfl, hbefore _⟩

/-- A call for a scene comes to the same if what follows it does. -/
theorem playScene (request : SceneRequest) {sequel sequel' : Option Sequel}
    (hsequel : Option.Rel (Sequel.Fits fits) sequel sequel') {own own' : World → World}
    (hown : Carries R own own') (h : R u v) :
    Matches R (u.playScene wiring revive request sequel own)
      (v.playScene wiring' revive' request sequel' own') := by
  have hhanded := blind.handed request (wiring.receiver.answer u request) hsequel h
  have hasked := blind.logged (.scene request .started)
    (blind.noted (.called (.scene request (wiring.receiver.answer u request))) hhanded)
  simp only [World.playScene, blind.answer h, blind.acts h, blind.length_tokens h]
  refine ⟨rfl, blind.filled h _ _ (blind.carryOut (fun t ht {w w'} hw => ?_) hasked)⟩
  split
  · exact hown hw
  -- a direct receiver resumes the token of the scene and no other
  · next hother =>
      refine hrevive (fun hdirect => hother ?_) t hw
      obtain ⟨_, hcall⟩ := hdirect ht
      exact (Call.scene.inj hcall).1.symm

theorem runScene (request : SceneRequest) {sequel sequel' : Sequel}
    (hsequel : sequel.Fits fits sequel') {run run' : World → World} (hrun : Carries R run run') :
    Carries R (·.runScene wiring revive request sequel run)
      (·.runScene wiring' revive' request sequel' run') := by
  intro u v h
  have hown : Carries R (World.resume (fun _ => some run) u.tokens.length)
      (World.resume (fun _ => some run') u.tokens.length) :=
    blind.resume (fun _ => .some hrun) _
  have hplay := blind.playScene hrevive request (.some hsequel) hown h
  simp only [World.runScene, blind.length_tokens h, hplay.answer]
  refine blind.noted _ ?_
  split
  · exact hown hplay.world
  · exact hplay.world

end Calls

/-- What an engine knows how to go on with comes to the same if its actions do. -/
theorem follow {e e' : Engine} {reach reach' : Reach} (hserial : e'.serial = e.serial)
    (hruns : ∀ {actions actions' : List Action}, fits actions actions' →
      Carries R (e.continueWith wiring reach actions) (e'.continueWith wiring' reach' actions'))
    (token : Nat) : Carries R (·.resume (e.follow wiring reach) token)
      (·.resume (e'.follow wiring' reach') token) := by
  refine blind.resume (fun {q q'} hq => ?_) token
  rw [Engine.follow, Engine.follow, hq.engine, hserial]
  split
  · exact .some (hruns hq.actions)
  · exact .none

end Unaware

/-- Effects that are asked for one after the other come to the same if each of them does. -/
theorem Matches.performAll {wiring wiring' : Wiring} {R : World → World → Prop}
    {revive revive' : Nat → World → World}
    (hcall : ∀ (x : Effect) {u v : World}, R u v →
      Matches R (u.perform wiring revive x) (v.perform wiring' revive' x))
    (effects : List Effect) {u v : World} (h : R u v) :
    Matches R (u.performAll wiring revive effects) (v.performAll wiring' revive' effects) := by
  induction effects generalizing u v with
  | nil => exact ⟨rfl, h⟩
  | cons x rest ih =>
      have hfirst := hcall x h
      have hrest := ih hfirst.world
      refine ⟨?_, hrest.world⟩
      simp only [World.performAll, hfirst.answer, hrest.answer]

/-- What follows a scene comes to the same if it does so against any snapshot. -/
theorem Matches.carries {R : World → World → Prop}
    (hstate : ∀ {u v : World}, R u v → v.game.state = u.game.state)
    {run run' : SessionState → World → Bool × World}
    (hrun : ∀ (s : SessionState) {u v : World}, R u v → Matches R (run s u) (run' s v)) :
    Carries R (fun w => (run w.game.state w).2) (fun w => (run' w.game.state w).2) := by
  intro u v h
  simp only [hstate h]
  exact (hrun u.game.state h).world

/-! ## The same actions twice -/

namespace Action

mutual

/-- The conditions that an action tests, at any depth. -/
def tests : Action → List Condition
  | .branch test thenDo elseDo => test :: (testsOf thenDo ++ testsOf elseDo)
  | .playCinematic _ onComplete => testsOf onComplete
  | .systemTutorial _ _ onComplete => testsOf onComplete
  | _ => []

/-- The conditions that a list of actions tests, at any depth. -/
def testsOf : List Action → List Condition
  | [] => []
  | a :: rest => tests a ++ testsOf rest

end

end Action

/-- What two interpreters need for the same actions to come to the same, as long as these test
only conditions that are `decided` alike. -/
structure Acting (e e' : Engine) (wiring wiring' : Wiring) (decided : Condition → Prop)
    (R : World → World → Prop) (reach reach' : Reach) : Prop where
  state : ∀ {u v : World}, R u v → v.game.state = u.game.state
  started : Carries R World.started World.started
  test : ∀ {test : Condition}, decided test → ∀ (s : SessionState) {u v : World}, R u v →
    Matches R (e.conditionsHold [test] s u) (e'.conditionsHold [test] s v)
  call : ∀ (x : Effect) {u v : World}, R u v →
    Matches R (u.perform wiring reach.revive x) (v.perform wiring' reach'.revive x)
  scene : ∀ (request : SceneRequest) {onComplete : List Action},
    (∀ test ∈ Action.testsOf onComplete, decided test) →
    ∀ {run run' : World → World}, Carries R run run' →
      Carries R (·.runScene wiring reach.revive request ⟨e.serial, onComplete⟩ run)
        (·.runScene wiring' reach'.revive request ⟨e'.serial, onComplete⟩ run')
  raise : ∀ (payload : Payload) {u v : World}, R u v →
    Matches R (reach.raise payload u) (reach'.raise payload v)

namespace Acting

variable {e e' : Engine} {wiring wiring' : Wiring} {decided : Condition → Prop}
variable {R : World → World → Prop} {reach reach' : Reach}

mutual

/-- An action comes to the same. -/
theorem run (acting : Acting e e' wiring wiring' decided R reach reach') (a : Action)
    (ha : ∀ test ∈ a.tests, decided test) (s : SessionState) {u v : World} (h : R u v) :
    Matches R (Action.run e wiring reach a s u) (Action.run e' wiring' reach' a s v) := by
  have hstarted : R u.started v.started := acting.started h
  cases a with
  | deed d =>
      simp only [Action.run]
      exact Matches.performAll acting.call d.effects hstarted
  | branch test thenDo elseDo =>
      rw [Action.tests, List.forall_mem_cons, List.forall_mem_append] at ha
      have htest := acting.test ha.1 s hstarted
      simp only [Action.run, htest.answer]
      split
      · exact acting.runAll thenDo ha.2.1 s htest.world
      · exact acting.runAll elseDo ha.2.2 s htest.world
  | playCinematic scene onComplete =>
      rw [Action.tests] at ha
      rcases scene with _ | scene
      · simp only [Action.run]
        exact acting.runAll onComplete ha s hstarted
      · simp only [Action.run]
        exact ⟨rfl, acting.scene _ ha (Matches.carries acting.state (acting.runAll onComplete ha)) hstarted⟩
  | systemTutorial scene context onComplete =>
      rw [Action.tests] at ha
      simp only [Action.run]
      exact ⟨rfl, acting.scene _ ha (Matches.carries acting.state (acting.runAll onComplete ha)) hstarted⟩
  | playerAction action item =>
      rcases action with _ | action
      · simp only [Action.run]
        exact ⟨rfl, hstarted⟩
      · simp only [Action.run]
        exact acting.raise _ hstarted
  | unknown type =>
      simp only [Action.run]
      exact ⟨rfl, hstarted⟩

/-- A list of actions comes to the same. -/
theorem runAll (acting : Acting e e' wiring wiring' decided R reach reach')
    (actions : List Action) (hactions : ∀ test ∈ Action.testsOf actions, decided test)
    (s : SessionState) {u v : World} (h : R u v) :
    Matches R (Action.runAll e wiring reach actions s u)
      (Action.runAll e' wiring' reach' actions s v) := by
  cases actions with
  | nil =>
      simp only [Action.runAll]
      exact ⟨rfl, h⟩
  | cons a rest =>
      rw [Action.testsOf, List.forall_mem_append] at hactions
      have hfirst := acting.run a hactions.1 s h
      have hrest := acting.runAll rest hactions.2 s hfirst.world
      simp only [Action.runAll]
      refine ⟨?_, hrest.world⟩
      rw [hfirst.answer, hrest.answer]

end

end Acting

/-- Receivers that cannot tell the worlds apart take care of the calls and scenes. -/
theorem Unaware.acting {e e' : Engine} {wiring wiring' : Wiring}
    {fits : List Action → List Action → Prop} {R : World → World → Prop} {reach reach' : Reach}
    (unaware : Unaware wiring wiring' fits R) (decided : Condition → Prop)
    (hserial : e'.serial = e.serial)
    (hfits : ∀ {actions : List Action},
      (∀ test ∈ Action.testsOf actions, decided test) → fits actions actions)
    (hstate : ∀ {u v : World}, R u v → v.game.state = u.game.state)
    (hstarted : Carries R World.started World.started)
    (htest : ∀ {test : Condition}, decided test → ∀ (s : SessionState) {u v : World}, R u v →
      Matches R (e.conditionsHold [test] s u) (e'.conditionsHold [test] s v))
    (hreach : reach.Parallel wiring R reach') :
    Acting e e' wiring wiring' decided R reach reach' where
  state := hstate
  started := hstarted
  test := htest
  call x _ _ h := unaware.perform hreach.revive x h
  scene request onComplete hdecided _ _ hrun _ _ h := by
    have hsequel : Sequel.Fits fits ⟨e.serial, onComplete⟩ ⟨e'.serial, onComplete⟩ :=
      ⟨hserial, hfits hdecided⟩
    exact unaware.runScene hreach.revive request hsequel hrun h
  raise := hreach.raise

end Narrative
