import Narrative.Proofs.Queue

set_option autoImplicit false

/-!
# Finishing a scene

To finish the oldest parked scene is to take it out of the queue, to count its tutorial as seen,
and to perform what follows it (`finishing_performs_sequel`). Whatever had been decided when the
scene was asked for has no say in it.

The two runs are compared side by side: at each step the worlds differ in the token of the scene,
in the count of resumptions and in the one note of the resumption (`Redeemed`), and a session
that parks its scenes sees none of the three.
-/

namespace Narrative

/-- The second world is the first, but that a token was used up when the trace was `base`, as `m`
tells. -/
def Redeemed (token : Nat) (m : Moment) (base : List Moment) (u v : World) : Prop :=
  token < u.tokens.length ∧ ∃ new, u.trace = new ++ base ∧
    v = { u with
      tokens := u.tokens.modify token fun t => { t with status := .resumed }
      counters := u.counters.plus { continuationsResumed := 1 }
      trace := new ++ m :: base }

/-- It makes no difference in which order counts are added. -/
theorem Counters.plus_right_comm (n more other : Counters) :
    (n.plus more).plus other = (n.plus other).plus more := by
  simp only [Counters.plus, Nat.add_right_comm]

namespace Redeemed

variable {token : Nat} {m : Moment} {base : List Moment} {u v : World} {wiring : Wiring}

/-- At the start the token was just used up. -/
theorem start {w : World} (h : token < w.tokens.length) :
    Redeemed token ⟨.resumed token .continued, w.game, w.depth⟩ w.trace w (w.redeem token) :=
  ⟨h, [], rfl, rfl⟩

theorem note (h : Redeemed token m base u v) (x : Happening) :
    Redeemed token m base (u.note x) (v.note x) := by
  obtain ⟨hlt, new, hnew, rfl⟩ := h
  exact ⟨hlt, ⟨x, u.game, u.depth⟩ :: new, congrArg (_ :: ·) hnew, rfl⟩

theorem count (h : Redeemed token m base u v) (more : Counters) :
    Redeemed token m base (u.count (·.plus more)) (v.count (·.plus more)) := by
  obtain ⟨hlt, new, hnew, rfl⟩ := h
  refine ⟨hlt, new, hnew, ?_⟩
  simp only [World.count, Counters.plus_right_comm _ _ more]

theorem guard (h : Redeemed token m base u v) (depth : UInt32) (inFlight : List Nat) :
    Redeemed token m base (u.guard depth inFlight) (v.guard depth inFlight) := by
  obtain ⟨hlt, new, hnew, rfl⟩ := h
  exact ⟨hlt, new, hnew, rfl⟩

theorem changeGame (h : Redeemed token m base u v) (f : Game → Game) :
    Redeemed token m base (u.changeGame f) (v.changeGame f) := by
  obtain ⟨hlt, new, hnew, rfl⟩ := h
  exact ⟨hlt, new, hnew, rfl⟩

theorem enqueue (h : Redeemed token m base u v) (later : List Nat) :
    Redeemed token m base { u with queue := u.queue ++ later }
      { v with queue := v.queue ++ later } := by
  obtain ⟨hlt, new, hnew, rfl⟩ := h
  exact ⟨hlt, new, hnew, rfl⟩

theorem log (h : Redeemed token m base u v) (entry : Entry) :
    Redeemed token m base (u.log wiring entry) (v.log wiring entry) := by
  obtain ⟨hlt, new, hnew, rfl⟩ := h
  simp only [World.log]
  split <;> exact ⟨hlt, new, hnew, rfl⟩

theorem fillIn (h : Redeemed token m base u v) (place : Nat) (kind : SceneKind)
    (answer : Playback) :
    Redeemed token m base (u.fillIn wiring place kind answer)
      (v.fillIn wiring place kind answer) := by
  obtain ⟨hlt, new, hnew, rfl⟩ := h
  simp only [World.fillIn]
  split <;> exact ⟨hlt, new, hnew, rfl⟩

/-- A token that is handed out later is another one. -/
theorem hand (h : Redeemed token m base u v) (request : SceneRequest) (answer : Playback)
    (sequel : Option Sequel) :
    Redeemed token m base (u.hand request answer sequel) (v.hand request answer sequel) := by
  obtain ⟨hlt, new, hnew, rfl⟩ := h
  refine ⟨?_, new, hnew, ?_⟩
  · rw [World.hand, List.length_append]
    exact Nat.lt_add_right 1 hlt
  · simp only [World.hand, modify_append_of_lt _ hlt]

theorem length_tokens (h : Redeemed token m base u v) : v.tokens.length = u.tokens.length := by
  obtain ⟨-, new, -, rfl⟩ := h
  exact List.length_modify _ _ _

theorem game (h : Redeemed token m base u v) : v.game = u.game := by
  obtain ⟨-, new, -, rfl⟩ := h
  rfl

theorem journal (h : Redeemed token m base u v) : v.journal = u.journal := by
  obtain ⟨-, new, -, rfl⟩ := h
  rfl

/-- An effect is settled. -/
theorem settle (h : Redeemed token m base u v) (x : Effect) :
    Redeemed token m base (u.settle wiring x) (v.settle wiring x) := by
  simp only [World.settle, h.game]
  exact ((h.note _).changeGame _).log _

/-- A scene is parked. -/
theorem park (h : Redeemed token m base u v) (request : SceneRequest) (sequel : Option Sequel) :
    Redeemed token m base (u.park wiring request sequel) (v.park wiring request sequel) := by
  have hasked : Redeemed token m base (u.ask wiring request .started sequel)
      (v.ask wiring request .started sequel) := ((h.hand request .started sequel).note _).log _
  simp only [World.park, h.length_tokens, h.journal]
  exact (hasked.enqueue [u.tokens.length]).fillIn _ _ _

/-- **Over a session that parks its scenes nobody can tell that the token was used up.** -/
theorem parallel (hparked : wiring.receiver = .session .park) (e : Engine) :
    Parallel e wiring wiring (Redeemed token m base) where
  state h := congrArg Game.state h.game
  depth h := by
    obtain ⟨-, new, -, rfl⟩ := h
    rfl
  inFlight h := by
    obtain ⟨-, new, -, rfl⟩ := h
    rfl
  counted more _ _ h := h.count more
  noted x _ _ h := h.note x
  guarded depth inFlight _ _ h := h.guard depth inFlight
  recorded _ _ _ h := h.changeGame _
  call _ x u v h := by
    rw [World.perform_session hparked, World.perform_session hparked]
    exact ⟨congrArg (·.accepts x) h.game, h.settle x⟩
  scene _ request sequel _ _ _ u v h := by
    simp only [World.runScene_park hparked, h.length_tokens]
    exact (h.park request (some sequel)).note _
  resumption hfree := by
    rw [hparked] at hfree
    exact (hfree (Receiver.isDirect_session .park)).elim

end Redeemed

/-! ## Plays -/

/-- A host that does not rewire a session leaves it in charge of its scenes. -/
theorem Move.leavesScenes_of_ne {m : Move} (h : ∀ wiring, m ≠ .rewire wiring) :
    m.LeavesScenes False := by
  cases m with
  | rewire wiring => exact absurd rfl (h wiring)
  | scene | restart => exact id
  | _ => trivial

/-- A tutorial that counts as seen is completed. -/
theorem Game.evaluate_tutorialCompleted (g : Game) (tutorial : String) :
    Condition.evaluate (g.seeTutorial (some tutorial)).state (.tutorialCompleted tutorial) =
      some true := by
  simp [Condition.evaluate, Game.seeTutorial, Game.updateState]

/-- The oldest scene that waits is over, and its engine goes on. -/
theorem Play.Queued.finishScene_eq {strict : Prop} {done : List (SceneKind × String)} {p : Play}
    (h : p.Queued strict done) {e : Engine} (he : p.engine = some e) {token : Nat}
    {rest : List Nat} (hqueue : p.world.queue = token :: rest) {t : SceneToken}
    (ht : p.world.tokens[token]? = some t) {actions : List Action}
    (hsequel : t.sequel = some ⟨e.serial, actions⟩) :
    p.finishScene = (some (t.request.kind, t.request.label),
      e.continueWith p.wiring (e.outlets p.wiring) actions
        ((({ p.world with queue := rest }).changeGame
          (·.seeTutorial t.request.tutorial?)).redeem token)) := by
  obtain ⟨-, -, t', ht', hpending⟩ := h.world.next hqueue
  obtain rfl := Option.some.inj (ht.symm.trans ht')
  have hfollow : p.follow ⟨e.serial, actions⟩ =
      some (e.continueWith p.wiring (e.outlets p.wiring) actions) :=
    Play.follow_eq_some_iff.2 ⟨e, he, rfl, rfl⟩
  have hresume : ∀ w : World, w.tokens[token]? = some t → p.resume token w =
      e.continueWith p.wiring (e.outlets p.wiring) actions (w.redeem token) := by
    intro w hw
    simp only [Play.resume, World.resume, hw, hpending, hsequel, Option.bind_some, hfollow,
      if_true]
  unfold Play.finishScene
  simp only [hqueue, ht]
  exact congrArg (Prod.mk _) (hresume (({ p.world with queue := rest }).changeGame
    (·.seeTutorial t.request.tutorial?)) ht)

/-- **To finish a scene is to perform what follows it.** Take any session that parks its scenes,
after any run, with an engine alive whose scene is the oldest that waits. To finish it does the
same as to take it out of the queue, to count its tutorial as seen, and to have the engine perform
what follows it: the worlds differ in the token of the scene, which is used up, and in the one
resumption that is noted and counted. So the actions are decided by the state at this moment,
and in it the tutorial of the scene is completed. -/
theorem finishing_performs_sequel (catalog : Catalog) (config : EngineConfig) (journaled : Bool)
    (state : SessionState) {steps : List HostStep}
    (hsteps : ∀ wiring, .move (.rewire wiring) ∉ steps) {e : Engine} {token : Nat}
    {rest : List Nat} {t : SceneToken} {actions : List Action} :
    let p := ((Play.start catalog config ⟨.session .park, journaled⟩ state).proceed steps).play
    let popped := ({ p.world with queue := rest }).changeGame (·.seeTutorial t.request.tutorial?)
    let performed := (e.perform p.wiring actions popped).2
    let finished := p.finishScene.2
    p.engine = some e → p.world.queue = token :: rest → p.world.tokens[token]? = some t →
    t.sequel = some ⟨e.serial, actions⟩ →
      p.finishScene.1 = some (t.request.kind, t.request.label) ∧
      (∃ new, performed.trace = new ++ p.world.trace ∧
        finished = { performed with
          tokens := performed.tokens.modify token fun t => { t with status := .resumed }
          counters := performed.counters.plus { continuationsResumed := 1 }
          trace := new ++ ⟨.resumed token .continued, popped.game, popped.depth⟩ :: p.world.trace }) ∧
      callsIn finished.trace = callsIn performed.trace ∧
      finished = (e.execute p.wiring actions popped.game.state (popped.redeem token)).2 ∧
      ∀ tutorial, t.request.tutorial? = some tutorial →
        Condition.evaluate popped.game.state (.tutorialCompleted tutorial) = some true := by
  intro p popped performed finished he hqueue ht hsequel
  have hmoves : ∀ m, .move m ∈ steps → m.LeavesScenes False :=
    fun m hm => Move.leavesScenes_of_ne fun wiring h => hsteps wiring (h ▸ hm)
  have hqueued : p.Queued False _ :=
    (Play.Queued.start catalog config journaled state).proceed hmoves
  have hfinish := hqueued.finishScene_eq he hqueue ht hsequel
  have hfinished : finished = (e.execute p.wiring actions popped.game.state
      (popped.redeem token)).2 := congrArg Prod.snd hfinish
  -- the two runs differ in the token from their start on
  have hlt : token < popped.tokens.length := (List.getElem?_eq_some_iff.1 ht).1
  have hredeemed := ((Redeemed.parallel hqueued.parked e).execute rfl actions popped.game.state
    (Redeemed.start hlt)).world
  rw [← hfinished] at hredeemed
  obtain ⟨-, new, hnew, hworld⟩ := hredeemed
  refine ⟨congrArg Prod.fst hfinish, ⟨new, hnew, hworld⟩, ?_, hfinished, ?_⟩
  · have hperformed : performed.trace = new ++ popped.trace := hnew
    rw [hperformed, hworld, callsIn_append, callsIn_append, callsIn_cons_of_none rfl]
  · intro tutorial h
    show Condition.evaluate (p.world.game.seeTutorial t.request.tutorial?).state _ = _
    rw [h]
    exact Game.evaluate_tutorialCompleted _ tutorial

/-- What follows a lesson asks whether the lesson was seen. When the lesson is asked for it was not,
but when it is over it was. -/
theorem lesson_counts_when_it_is_over :
    let sequel : List Action := [.branch (.tutorialCompleted "walking")
      [.deed (.giveXp (some 5))] [.deed (.giveXp (some 1))]]
    let steps : List HostStep := [.move (.perform [.systemTutorial none (some "walking") sequel])]
    let p := ((Play.start ∅ {} ⟨.session .park, true⟩ {}).proceed steps).play
    let popped := ({ p.world with queue := [] }).changeGame (·.seeTutorial (some "walking"))
    let performed := (Engine.perform {} p.wiring sequel popped).2
    (∀ wiring, .move (.rewire wiring) ∉ steps) ∧ p.engine.isSome = true ∧ p.world.queue = [0] ∧
    Condition.evaluate p.world.game.state (.tutorialCompleted "walking") = some false ∧
    Condition.evaluate popped.game.state (.tutorialCompleted "walking") = some true ∧
    p.finishScene.2.game.progress.xp = 5 ∧
    callsIn p.finishScene.2.trace = callsIn performed.trace := by
  intro sequel steps p popped performed
  have hsteps : ∀ wiring, .move (.rewire wiring) ∉ steps := by
    simp [steps]
  have htoken : p.world.tokens[0]? =
      some ⟨.tutorial none (some "walking"), .started, some ⟨0, sequel⟩, .pending⟩ := rfl
  obtain ⟨-, -, hcalls, -, hseen⟩ :=
    finishing_performs_sequel ∅ {} true {} hsteps rfl rfl htoken rfl
  exact ⟨hsteps, rfl, rfl, by decide, hseen "walking" rfl, by decide, hcalls⟩

end Narrative
