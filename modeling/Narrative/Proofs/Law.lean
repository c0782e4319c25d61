import Narrative.Proofs.Steady

set_option autoImplicit false

/-!
# What holds of every run

To prove that something holds of everything an engine does, it is enough to prove it of
the pieces: a deed, a scene, a resumption, a refusal, what a dispatch adds around its
candidates and what a candidate adds around its actions (`Law`). A law relates the world
before a run, the answer of the run and the world after it.

The induction is done here once. It follows the interpreter (`ActionLaw.run`, `ActionLaw.runAll`),
the sweep over the candidates (`Law.rule`, `Law.sweep`) and the clock (`Law.reach_lawful`), and
ends in what the host calls (`Law.handle`, `Law.execute`, `Law.runs_outlets`).
-/

namespace Narrative

/-- Where a run stands, and for how many nested calls it has room: among actions, or between
the candidates of a dispatch. -/
inductive Stage where
  | acting (clock : Nat)
  | ruling (clock : Nat)

/-- A direct receiver resumes inside a call only the token that the call hands over. -/
def Receiver.IsDirect (r : Receiver) : Prop :=
  ∀ {w : World} {call : Call} {token : Nat}, .resume token ∈ r.acts w call →
    ∃ request, call = .scene token request

/-- A session resumes nothing but the token of a scene, whatever its screen. -/
theorem Receiver.isDirect_session (screen : Screen) : (Receiver.session screen).IsDirect := by
  intro w call token h
  cases call with
  | effect x =>
      rw [Receiver.session, List.mem_singleton] at h
      cases h
  | scene own request =>
      simp only [Receiver.session] at h
      have htoken : token = own := by
        cases screen with
        | park => simp [Screen.acts] at h
        | finishAtOnce => simpa [Screen.acts] using h
        | entrust handling =>
            simp only [Screen.acts, List.mem_append, List.mem_replicate] at h
            -- to keep a callback resumes nothing; all other acts resume the token itself
            rcases h with h | ⟨-, h⟩
            · split at h <;> simp at h
            · exact Act.resume.inj h
      exact ⟨request, by rw [htoken]⟩

/-- A count of anything but resumptions and events that fired, which are counted where they
happen. -/
def CountsAside (f : Counters → Counters) : Prop :=
  ∀ n, (f n).continuationsResumed = n.continuationsResumed ∧ (f n).eventsFired = n.eventsFired

/-- What a law needs of the resumptions of other tokens inside a call. If the receiver is
direct there are none. -/
structure Revives (wiring : Wiring) (L : Stage → World → Bool → World → Prop)
    (revive : Nat → World → World) : Prop where
  steady : ∀ token w, Steady w (revive token w)
  lawful : ¬ wiring.receiver.IsDirect → ∀ g token w, ∃ b, L g w b (revive token w)

/-- What a law needs of a run of actions whose answer nobody reads. -/
structure Runs (L : Stage → World → Bool → World → Prop) (k : Nat) (run : World → World) :
    Prop where
  steady : ∀ w, Steady w (run w)
  lawful : ∀ w, ∃ b, L (.acting k) w b (run w)

/-- What happens one after the other obeys a law if each part does, and nothing obeys it as well. -/
structure Composes (L : Stage → World → Bool → World → Prop) : Prop where
  stay : ∀ {g : Stage} (w : World), L g w false w
  andThen : ∀ {g : Stage} {u v w : World} {b b' : Bool}, Steady u v → Steady v w →
    L g u b v → L g v b' w → L g u (b || b') w

/-- The pieces of a run of actions obey a law. -/
structure ActionLaw (e : Engine) (wiring : Wiring) (L : Stage → World → Bool → World → Prop) :
    Prop extends Composes L where
  tally : ∀ {g : Stage} (w : World) {f : Counters → Counters}, CountsAside f →
    L g w false (w.count f)
  deed : ∀ {k : Nat} {revive : Nat → World → World}, Revives wiring L revive →
    ∀ (d : Deed) (w : World), L (.acting k) w (w.performAll wiring revive d.effects).1
      (w.performAll wiring revive d.effects).2
  scene : ∀ {k : Nat} {revive : Nat → World → World} {run : World → World},
    Revives wiring L revive → Runs L k run →
    ∀ (request : SceneRequest) {sequel : Sequel} (w : World), sequel.engine = e.serial →
      L (.acting k) w true (w.runScene wiring revive request sequel run)

/-- The pieces of a run obey a law. The run starts with the events of `base` in flight. -/
structure Law (e : Engine) (wiring : Wiring) (base : List Nat)
    (L : Stage → World → Bool → World → Prop) : Prop extends ActionLaw e wiring L where
  /-- Inside a call only a receiver that is not direct resumes other tokens. -/
  resumption : ¬ wiring.receiver.IsDirect → ∀ {k : Nat} {reach : Reach},
    (∀ actions, Runs L k (e.continueWith wiring reach actions)) →
    ∀ (token : Nat) (w : World),
      ∃ b, L (.acting k) w b (w.resume (e.follow wiring reach) token)
  stall : ∀ w : World, L (.acting 0) w false (w.note .stalled)
  refusal : ∀ {k : Nat} {w : World}, e.config.dispatch.maxDepth ≤ w.depth →
    L (.acting k) w false (Engine.refuseDispatch w)
  nested : ∀ {k : Nat} {u v : World} {b : Bool}, ¬ e.config.dispatch.maxDepth ≤ u.depth →
    Steady (Engine.openDispatch u) v → L (.ruling k) (Engine.openDispatch u) b v →
      L (.acting (k + 1)) u b v.leave
  flight : ∀ {k : Nat} {revive : Nat → World → World} {t : String} {c : Candidate}
    {w v : World} {took : Bool}, Revives wiring L revive → c ∈ e.catalog.candidates t →
    (w.inFlight = base ∨ t = Engine.raisedType) → c.position ∉ w.inFlight →
    c.event.isCompleted w.game.state = false →
    Steady (Engine.begin c w) v → L (.acting k) (Engine.begin c w) took v →
      L (.ruling k) w took
        (if took then Engine.announce wiring revive c.event (v.land c.position)
        else v.land c.position)
  /-- A receiver that is not direct may start actions from anywhere. -/
  mute : ¬ wiring.receiver.IsDirect → ∀ {k : Nat} {g : Stage} {u v : World} {b b' : Bool},
    L (.acting k) u b v → L g u b' v

/-- A run is lawful if it is steady and obeys the law. -/
structure Lawful (L : Stage → World → Bool → World → Prop) (g : Stage) (u : World) (b : Bool)
    (v : World) : Prop where
  steady : Steady u v
  law : L g u b v

/-- The ways out of an action list are lawful. -/
structure Reach.Lawful (wiring : Wiring) (L : Stage → World → Bool → World → Prop) (k : Nat)
    (reach : Reach) : Prop where
  raise : ∀ p w, Narrative.Lawful L (.acting k) w (reach.raise p w).1 (reach.raise p w).2
  revive : Revives wiring L reach.revive

/-- Only a dispatch announces that an event fired. -/
theorem Deed.ne_eventCompleted {d : Deed} {x : Effect} (hx : x ∈ d.effects) (id : String) :
    x ≠ .eventCompleted id := by
  rintro rfl
  -- one case per deed, and two where the deed may lack an id
  unfold Deed.effects at hx
  split at hx <;> try split at hx
  all_goals simp at hx

/-- **Deeds obey a law if single calls do.** -/
theorem Composes.deed {wiring : Wiring} {L : Stage → World → Bool → World → Prop}
    (composes : Composes L) (g : Stage) {revive : Nat → World → World}
    (hsteady : ∀ token w, Steady w (revive token w))
    (hcall : ∀ {x : Effect} (w : World), (∀ id, x ≠ .eventCompleted id) →
      L g w (w.perform wiring revive x).1 (w.perform wiring revive x).2)
    (d : Deed) (w : World) : L g w (w.performAll wiring revive d.effects).1
      (w.performAll wiring revive d.effects).2 := by
  have heffects : ∀ x ∈ d.effects, ∀ id, x ≠ .eventCompleted id :=
    fun x hx id => Deed.ne_eventCompleted hx id
  generalize d.effects = effects at heffects
  induction effects generalizing w with
  | nil => exact composes.stay w
  | cons x rest ih =>
      have hrest : ∀ y ∈ rest, ∀ id, y ≠ .eventCompleted id :=
        fun y hy => heffects y (List.mem_cons_of_mem x hy)
      exact composes.andThen (.perform hsteady x w) (.performAll hsteady rest _)
        (hcall w (heffects x List.mem_cons_self)) (ih _ hrest)

/-- A dispatch reports that something fired if one of its rulings says so. -/
theorem Report.anyFired_eq (t : String) (refused : Bool) (rulings : List (String × Verdict)) :
    (Report.mk t refused rulings).anyFired = rulings.any (·.2 == .fired) := by
  rw [Report.anyFired, Report.fired]
  induction rulings with
  | nil => rfl
  | cons r rest ih =>
      cases h : r.2 == .fired with
      | true => simp [h]
      | false => simpa [h] using ih

/-- A sequel is lawful if its actions are. -/
theorem Law.runs {e : Engine} {wiring : Wiring} {L : Stage → World → Bool → World → Prop} {k : Nat}
    {reach : Reach} {actions : List Action}
    (h : ∀ s w, Lawful L (.acting k) w (Action.runAll e wiring reach actions s w).1
      (Action.runAll e wiring reach actions s w).2) :
    Runs L k (e.continueWith wiring reach actions) where
  steady w := (h w.game.state w).steady
  lawful w := ⟨_, (h w.game.state w).law⟩

namespace ActionLaw

variable {e : Engine} {wiring : Wiring} {L : Stage → World → Bool → World → Prop}
variable {k : Nat} {reach : Reach}

section Interpreter

variable (law : ActionLaw e wiring L) (hreach : reach.Lawful wiring L k)

include law

/-- Counting, except of resumptions and of events that fired. -/
theorem count {g : Stage} (w : World) {f : Counters → Counters} (hf : CountsAside f) :
    Lawful L g w false (w.count f) :=
  ⟨.count w f, law.tally w hf⟩

theorem started {g : Stage} (w : World) : Lawful L g w false w.started :=
  law.count w fun _ => ⟨rfl, rfl⟩

/-- One run after another. -/
theorem trans {g : Stage} {u v w : World} {b b' : Bool} (h : Lawful L g u b v)
    (h' : Lawful L g v b' w) : Lawful L g u (b || b') w :=
  ⟨h.steady.trans h'.steady, law.andThen h.steady h'.steady h.law h'.law⟩

/-- A run after something that has no say in the answer. -/
theorem after {g : Stage} {u v w : World} {b : Bool} (h : Lawful L g u false v)
    (h' : Lawful L g v b w) : Lawful L g u b w := by
  have := law.trans h h'
  rwa [Bool.false_or] at this

theorem conditionsHold {g : Stage} (cs : List Condition) (s : SessionState) (w : World) :
    Lawful L g w false (e.conditionsHold cs s w).2 := by
  simp only [Engine.conditionsHold]
  refine law.count w ?_
  exact fun _ => ⟨rfl, rfl⟩

theorem triggerMatches {g : Stage} (t : Trigger) (p : Payload) (s : SessionState) (w : World) :
    Lawful L g w false (e.triggerMatches t p s w).2 := by
  simp only [Engine.triggerMatches]
  refine law.count w ?_
  exact fun _ => ⟨rfl, rfl⟩

include hreach

/-- A scene whose sequel is lawful. -/
theorem runScene {run : World → World} (hrun : Runs L k run) (request : SceneRequest)
    (actions : List Action) (w : World) :
    Lawful L (.acting k) w true
      (w.started.runScene wiring reach.revive request ⟨e.serial, actions⟩ run) := by
  refine law.after (law.started w) ⟨?_, law.scene hreach.revive hrun request _ rfl⟩
  exact .runScene hreach.revive.steady hrun.steady request _ _

end Interpreter

mutual

/-- What an action does is lawful. -/
theorem run (law : ActionLaw e wiring L) (hreach : reach.Lawful wiring L k) (a : Action)
    (s : SessionState) (w : World) :
    Lawful L (.acting k) w (Action.run e wiring reach a s w).1
      (Action.run e wiring reach a s w).2 := by
  cases a with
  | deed d =>
      rw [Action.run]
      exact law.after (law.started w)
        ⟨.performAll hreach.revive.steady d.effects _, law.deed hreach.revive d _⟩
  | branch test thenDo elseDo =>
      have htest := law.after (law.started w) (law.conditionsHold (g := .acting k) [test] s _)
      rw [Action.run]
      simp only
      split
      · exact law.after htest (law.runAll hreach thenDo s _)
      · exact law.after htest (law.runAll hreach elseDo s _)
  | playCinematic scene onComplete =>
      rcases scene with _ | scene
      · rw [Action.run]
        exact law.after (law.started w) (law.runAll hreach onComplete s _)
      · rw [Action.run]
        exact law.runScene hreach (Law.runs (law.runAll hreach onComplete)) _ _ w
  | systemTutorial scene context onComplete =>
      rw [Action.run]
      exact law.runScene hreach (Law.runs (law.runAll hreach onComplete)) _ _ w
  | playerAction action item =>
      rcases action with _ | action
      · rw [Action.run]
        exact law.started w
      · rw [Action.run]
        exact law.after (law.started w) (hreach.raise _ _)
  | unknown type =>
      rw [Action.run]
      exact law.started w

/-- What a list of actions does is lawful. -/
theorem runAll (law : ActionLaw e wiring L) (hreach : reach.Lawful wiring L k)
    (actions : List Action) (s : SessionState) (w : World) :
    Lawful L (.acting k) w (Action.runAll e wiring reach actions s w).1
      (Action.runAll e wiring reach actions s w).2 := by
  cases actions with
  | nil =>
      rw [Action.runAll]
      exact ⟨.refl w, law.stay w⟩
  | cons a rest =>
      rw [Action.runAll]
      exact law.trans (law.run hreach a s w) (law.runAll hreach rest s _)

end

end ActionLaw

namespace Law

variable {e : Engine} {wiring : Wiring} {L : Stage → World → Bool → World → Prop}
variable {base : List Nat} {k : Nat} {reach : Reach}

section Dispatch

variable (law : Law e wiring base L) (hreach : reach.Lawful wiring L k)

include law hreach

/-- A resumption by the engine is steady. -/
theorem steady_resume (token : Nat) (w : World) :
    Steady w (w.resume (e.follow wiring reach) token) := by
  refine Steady.resume (fun {q run} hfollow w => ?_) token w
  obtain ⟨-, rfl⟩ := Engine.follow_eq_some_iff.1 hfollow
  exact (runs (law.runAll hreach q.actions)).steady w

/-- Executing a candidate against which nothing stands is lawful. -/
theorem fly {t : String} {c : Candidate} {w : World} (hc : c ∈ e.catalog.candidates t)
    (ht : w.inFlight = base ∨ t = Engine.raisedType) (hflight : c.position ∉ w.inFlight)
    (hlive : c.event.isCompleted w.game.state = false) (s : SessionState) :
    Lawful L (.ruling k) w (e.fly wiring reach s c w).1
      (if (e.fly wiring reach s c w).1
        then Engine.announce wiring reach.revive c.event (e.fly wiring reach s c w).2
        else (e.fly wiring reach s c w).2) where
  steady := by
    have hland : Steady w (e.fly wiring reach s c w).2 :=
      .land (law.runAll hreach c.event.actions s (Engine.begin c w)).steady
    split
    · exact hland.trans (.announce hreach.revive.steady c.event _)
    · exact hland
  law := by
    have hrun := law.runAll hreach c.event.actions s (Engine.begin c w)
    exact law.flight hreach.revive hc ht hflight hlive hrun.steady hrun.law

/-- Deciding about a candidate is lawful, and leaves the game alone unless its actions are
executed. As long as none were, the snapshot is the game of now. -/
theorem rule {t : String} {c : Candidate} {w : World} {s : SessionState} {ran : Bool}
    (hc : c ∈ e.catalog.candidates t) (ht : w.inFlight = base ∨ t = Engine.raisedType)
    (hs : ran = false → w.game.state = s) (payload : Payload) :
    Lawful L (.ruling k) w ((e.rule wiring reach s payload ran c w).1 == .fired)
        (e.rule wiring reach s payload ran c w).2 ∧
      ((e.rule wiring reach s payload ran c w).1.isExecuted = false →
        (e.rule wiring reach s payload ran c w).2.game = w.game) := by
  -- what the two checks count, on the way to the candidates that pass them
  have hholds := law.conditionsHold (g := .ruling k) c.event.conditions s w
  have hmatch := law.after hholds
    (law.triggerMatches c.event.trigger payload s (e.conditionsHold c.event.conditions s w).2)
  rw [Engine.rule]
  split
  · exact ⟨⟨.refl w, law.stay w⟩, fun _ => rfl⟩
  next hsnapshot =>
  split
  · have hskip := law.count (g := .ruling k) w
      (f := fun n => { n with cyclesSkipped := n.cyclesSkipped + 1 }) fun _ => ⟨rfl, rfl⟩
    exact ⟨hskip, fun _ => rfl⟩
  next hflight =>
  simp only
  split
  · exact ⟨hholds, fun _ => rfl⟩
  split
  · exact ⟨hmatch, fun _ => rfl⟩
  split
  · exact ⟨hmatch, fun _ => rfl⟩
  next hrecorded =>
  -- the snapshot decides as long as nothing ran, and the record of now after that
  have hlive : c.event.isCompleted w.game.state = false := by
    cases ran with
    | false => exact Bool.eq_false_iff.2 (hs rfl ▸ hsnapshot)
    | true => exact Bool.eq_false_iff.2 hrecorded
  have hnew : c.position ∉ w.inFlight := fun h => hflight (List.contains_iff_mem.2 h)
  -- looking at conditions and trigger leaves the game and the guards alone
  have hfly := law.after hmatch (law.fly hreach (w := (e.triggerMatches c.event.trigger payload s
    (e.conditionsHold c.event.conditions s w).2).2) hc ht hnew hlive s)
  split
  · next htook =>
      rw [htook] at hfly
      exact ⟨hfly, fun h => Bool.noConfusion h⟩
  · next htook =>
      rw [Bool.eq_false_iff.2 htook] at hfly
      exact ⟨hfly, fun h => Bool.noConfusion h⟩

/-- Going through candidates is lawful. -/
theorem sweep {t : String} {cs : List Candidate} (hcs : ∀ c ∈ cs, c ∈ e.catalog.candidates t)
    {w : World} {s : SessionState} {ran : Bool}
    (ht : w.inFlight = base ∨ t = Engine.raisedType) (hs : ran = false → w.game.state = s)
    (payload : Payload) :
    Lawful L (.ruling k) w
      ((Engine.sweep (e.rule wiring reach s payload) ran cs w).1.any (·.2 == .fired))
      (Engine.sweep (e.rule wiring reach s payload) ran cs w).2 := by
  induction cs generalizing ran w with
  | nil => exact ⟨.refl w, law.stay w⟩
  | cons c rest ih =>
      obtain ⟨hrule, hgame⟩ := law.rule hreach (hcs c List.mem_cons_self) ht hs payload
      -- the candidate leaves the guards as they were, so the rest may rely on them
      refine law.trans hrule (ih (fun x hx => hcs x (List.mem_cons_of_mem c hx)) ?_ ?_)
      · rwa [hrule.steady.inFlight]
      · intro hran
        obtain ⟨hbefore, hverdict⟩ := Bool.or_eq_false_iff.1 hran
        rw [hgame hverdict, hs hbefore]

/-- Answering an occurrence is lawful. Inside a dispatch only player actions are raised. -/
theorem dispatch {t : String} {w : World} (ht : w.inFlight = base ∨ t = Engine.raisedType)
    (payload : Payload) :
    Lawful L (.acting (k + 1)) w (e.dispatch wiring reach t payload w).1.anyFired
      (e.dispatch wiring reach t payload w).2 := by
  rw [Engine.dispatch]
  split
  · next hlimit => exact ⟨.refuseDispatch w, law.refusal hlimit⟩
  · next hlimit =>
      have hopen : (Engine.openDispatch w).inFlight = base ∨ t = Engine.raisedType := ht
      have hsweep :=
        law.sweep hreach (fun _ hc => hc) hopen (fun (_ : false = false) => rfl) payload
      simp only [Report.anyFired_eq]
      exact ⟨.leave hlimit hsweep.steady, law.nested hlimit hsweep.steady hsweep.law⟩

end Dispatch

/-! ## The clock -/

section Clock

variable (law : Law e wiring base L)

include law

/-- The ways out are lawful, however many nested calls they leave room for. -/
theorem reach_lawful (k : Nat) : (e.reach wiring k).Lawful wiring L k := by
  induction k with
  | zero =>
      constructor
      · exact fun _ w => ⟨.note w _, law.stall w⟩
      · exact ⟨fun _ w => .note w _, fun hfree _ _ w => ⟨false, law.mute hfree (law.stall w)⟩⟩
  | succ k ih =>
      constructor
      -- whatever is raised from inside is a player action
      · exact fun payload w => law.dispatch ih (.inr rfl) payload
      · constructor
        · exact law.steady_resume ih
        · intro hfree _ token w
          have hruns := fun actions => runs (law.runAll ih actions)
          obtain ⟨b, h⟩ := law.resumption hfree hruns token w
          exact ⟨b, law.mute hfree h⟩

/-- An occurrence that the host reports is answered lawfully. -/
theorem handle {w : World} (hw : w.inFlight = base) (t : String) (payload : Payload) :
    Lawful L (.acting (e.clock wiring + 1)) w (e.handle wiring t payload w).1.anyFired
      (e.handle wiring t payload w).2 :=
  law.dispatch (law.reach_lawful _) (.inl hw) payload

/-- Actions that no event executes are run lawfully. -/
theorem execute (actions : List Action) (s : SessionState) (w : World) :
    Lawful L (.acting (e.clock wiring)) w (e.execute wiring actions s w).1
      (e.execute wiring actions s w).2 :=
  law.runAll (law.reach_lawful _) actions s w

/-- What follows a scene is run lawfully when the host resumes its token. -/
theorem runs_outlets (actions : List Action) :
    Runs L (e.clock wiring) (e.continueWith wiring (e.outlets wiring) actions) :=
  runs (law.runAll (law.reach_lawful _) actions)

end Clock

/-- A law that asks for nothing. What is lawful by it is steady. -/
theorem nothing (e : Engine) (wiring : Wiring) (base : List Nat) :
    Law e wiring base fun _ _ _ _ => True := by
  have hcomposes : Composes fun _ _ _ _ => True := by
    constructor <;> intros <;> trivial
  have hactions : ActionLaw e wiring fun _ _ _ _ => True := by
    refine ⟨hcomposes, ?_, ?_, ?_⟩ <;> intros <;> trivial
  refine ⟨hactions, ?_, ?_, ?_, ?_, ?_, ?_⟩ <;> intros <;> trivial

end Law

end Narrative
