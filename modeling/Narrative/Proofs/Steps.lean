import Narrative.Proofs.Law

set_option autoImplicit false

/-!
# A run step by step

The smallest changes that a run makes to the world (`Touch`, `Step`), and the courses they
form (`Course`). Everything an engine does is a course (`Course.law`), so what every
step preserves is preserved by every run (`Course.induct`).

A call, a scene or a resumption is made of touches and of the runs inside it. So a relation
that every touch obeys holds of it if it holds of these runs (`Tracks`).
-/

namespace Narrative

/-- A change that the engine with number `alive` makes, or nobody if there is none: to the
counters, the journal, the game and the tokens. -/
inductive Touch (alive : Option Nat) (wiring : Wiring) : World → World → Prop where
  | counted (w : World) (f : Counters → Counters) (h : CountsAside f) :
      Touch alive wiring w (w.count f)
  | called (w : World) (entry : Entry) (h : ∀ id b, entry ≠ .effect (.eventCompleted id) b) :
      Touch alive wiring w (w.note (.called entry))
  | logged (w : World) (journal : List Entry) :
      Touch alive wiring w { w with journal := journal }
  | changed {u : World} {call : Call} {f : Game → Game} (w : World)
      (h : .change f ∈ wiring.receiver.acts u call) : Touch alive wiring w (w.changeGame f)
  | parked (w : World) (token : Nat) :
      Touch alive wiring w { w with queue := w.queue ++ [token] }
  | kept (w : World) (token : Nat) : Touch alive wiring w { w with kept := w.kept ++ [token] }
  | handed (w : World) (request : SceneRequest) (answer : Playback) (sequel : Option Sequel)
      (h : ∀ q, sequel = some q → alive = some q.engine) :
      Touch alive wiring w (w.hand request answer sequel)
  | redeemed {w : World} {token : Nat} {t : SceneToken} {q : Sequel}
      (ht : w.tokens[token]? = some t) (hp : t.status = .pending) (hq : t.sequel = some q)
      (h : alive = some q.engine) : Touch alive wiring w (w.redeem token)
  | lapsed {w : World} {token : Nat} {t : SceneToken}
      (ht : w.tokens[token]? = some t) (hp : t.status = .pending)
      (h : ∀ q, t.sequel = some q → alive ≠ some q.engine) :
      Touch alive wiring w (w.lapse token)
  | ignored {w : World} {token : Nat} {t : SceneToken}
      (ht : w.tokens[token]? = some t) (hp : t.status ≠ .pending) :
      Touch alive wiring w (w.note (.resumed token .ignored))
  | returned {w : World} {token : Nat} {t : SceneToken} {q : Sequel}
      (ht : w.tokens[token]? = some t) (hq : t.sequel = some q) (h : alive = some q.engine)
      (hd : t.answer = .declined → t.status ≠ .pending) :
      Touch alive wiring w (w.note (.returned token))

/-- To write an entry is a touch. -/
theorem Touch.log (alive : Option Nat) (wiring : Wiring) (w : World) (entry : Entry) :
    Touch alive wiring w (w.log wiring entry) := by
  obtain ⟨journal, hlog⟩ := w.exists_log wiring entry
  rw [hlog]
  exact .logged w journal

/-- To fill in an answer is a touch. -/
theorem Touch.fillIn (alive : Option Nat) (wiring : Wiring) (w : World) (place : Nat)
    (kind : SceneKind) (answer : Playback) :
    Touch alive wiring w (w.fillIn wiring place kind answer) := by
  obtain ⟨journal, hfill⟩ := w.exists_fillIn wiring place kind answer
  rw [hfill]
  exact .logged w journal

/-! ## Calls and resumptions -/

/-- A relation between worlds that every touch obeys, and one change after another. -/
structure Tracks (alive : Option Nat) (wiring : Wiring) (P : World → World → Prop) : Prop where
  refl : ∀ w, P w w
  trans : ∀ {u v w : World}, P u v → P v w → P u w
  touch : ∀ {u v : World}, Touch alive wiring u v → P u v

/-- The resumptions inside a call, as far as a law for one stage tells. -/
theorem Revives.tracked {wiring : Wiring} {L : Stage → World → Bool → World → Prop}
    {revive : Nat → World → World} {P : World → World → Prop} (hrevive : Revives wiring L revive)
    (g : Stage) (hP : ∀ {u b v}, L g u b v → P u v) :
    Revives wiring (fun _ u _ v => P u v) revive where
  steady := hrevive.steady
  lawful hfree _ token w := (hrevive.lawful hfree g token w).imp fun _ h => hP h

namespace Tracks

variable {alive : Option Nat} {wiring : Wiring} {P : World → World → Prop} {u : World}
variable (track : Tracks alive wiring P)

include track

/-- What a receiver does during a call, if the resumptions among it are tracked. They happen
after some moment `o`. -/
theorem carryOut {o : World} {call : Call} {acts : List Act} {resume : Nat → World → World}
    {v : World} (hacts : ∀ a ∈ acts, a ∈ wiring.receiver.acts o call)
    (hresume : ∀ token, .resume token ∈ acts → ∀ w, Steady u w →
      Steady w (resume token w) ∧ P w (resume token w))
    (hv : Steady u v) : P v (v.carryOut resume acts) := by
  induction acts generalizing v with
  | nil => exact track.refl _
  | cons a rest ih =>
      -- the acts that follow find whatever world the first one leaves
      have hrest : ∀ {w}, Steady u w → P w (w.carryOut resume rest) :=
        ih (fun x hx => hacts x (List.mem_cons_of_mem a hx))
          (fun token hx => hresume token (List.mem_cons_of_mem a hx))
      cases a with
      | change f =>
          have ha : Touch alive wiring v (v.changeGame f) :=
            .changed v (hacts _ List.mem_cons_self)
          exact track.trans (track.touch ha) (hrest (hv.trans (.changeGame v f)))
      | park token =>
          exact track.trans (track.touch (.parked v token)) (hrest (hv.trans (.park v token)))
      | keep token =>
          exact track.trans (track.touch (.kept v token)) (hrest (hv.trans (.keep v token)))
      | resume token =>
          obtain ⟨hsteady, htracked⟩ := hresume token List.mem_cons_self v hv
          exact track.trans htracked (hrest (hv.trans hsteady))

/-- A resumption, if the sequels that are run belong to the engine and are tracked, and those
that are not run belong to others. -/
theorem resume {follow : Sequel → Option (World → World)} {token : Nat} {w : World}
    (hrun : ∀ {t q run}, w.tokens[token]? = some t → t.sequel = some q → follow q = some run →
      alive = some q.engine ∧ ∀ w, P w (run w))
    (hnone : ∀ {t q}, w.tokens[token]? = some t → t.sequel = some q → follow q = none →
      alive ≠ some q.engine) :
    P w (w.resume follow token) := by
  have hresumes := w.resumes follow token
  generalize w.resume follow token = v at hresumes ⊢
  cases hresumes with
  | unknown => exact track.refl w
  | lapsed ht hp hnobody =>
      exact track.touch (.lapsed ht hp fun q hq => hnone ht hq (hnobody q hq))
  | continued ht hp hq hfollow =>
      -- the token is redeemed before its sequel runs
      obtain ⟨halive, htracked⟩ := hrun ht hq hfollow
      exact track.trans (track.touch (.redeemed ht hp hq halive)) (htracked _)
  | ignored ht hp => exact track.touch (.ignored ht hp)

section Calls

variable {revive : Nat → World → World}
variable (hrevive : Revives wiring (fun _ u _ v => P u v) revive)

include hrevive

/-- What a receiver does during an effect. -/
theorem carryOut_effect (o : World) (x : Effect) (w : World) :
    P w (w.carryOut revive (wiring.receiver.acts o (.effect x))) := by
  refine track.carryOut (fun _ ha => ha)
    (fun token htoken v _ => ⟨hrevive.steady token v, ?_⟩) (.refl w)
  by_cases hdirect : wiring.receiver.IsDirect
  · obtain ⟨request, hcall⟩ := hdirect htoken
    cases hcall
  · obtain ⟨_, htracked⟩ := hrevive.lawful hdirect (.acting 0) token v
    exact htracked

/-- An effect other than the announcement of an event. -/
theorem perform {x : Effect} (w : World) (hx : ∀ id, x ≠ .eventCompleted id) :
    P w (w.perform wiring revive x).2 := by
  have hcalled : P w
      (w.note (.called (.effect x (wiring.receiver.accepts w x)))) := by
    refine track.touch (.called w _ fun id b h => hx id ?_)
    exact (Entry.effect.inj h).1
  -- a taking is written down after what is done about it, everything else before
  have hafter := fun entry => track.trans
    (track.trans hcalled (track.carryOut_effect hrevive w x _)) (track.touch (.log _ _ _ entry))
  have hbefore := fun entry => track.trans
    (track.trans hcalled (track.touch (.log _ _ _ entry))) (track.carryOut_effect hrevive w x _)
  cases x <;> first | exact hafter _ | exact hbefore _

/-- A scene, if the resumptions of its token are tracked. -/
theorem playScene {request : SceneRequest} {sequel : Option Sequel} {own : World → World}
    {w : World} (hsequel : ∀ q, sequel = some q → alive = some q.engine)
    (hown : ∀ v, Steady (w.hand request (wiring.receiver.answer w request) sequel) v →
      Steady v (own v) ∧ P v (own v)) :
    P w (w.playScene wiring revive request sequel own).2 := by
  have hhand : Touch alive wiring w _ :=
    .handed w request (wiring.receiver.answer w request) sequel hsequel
  have hentry : Touch alive wiring (w.hand request (wiring.receiver.answer w request) sequel) _ :=
    .called _ (.scene request (wiring.receiver.answer w request)) fun _ _ h => Entry.noConfusion h
  have hlogged : Touch alive wiring ((w.hand request (wiring.receiver.answer w request) sequel).note
      (.called (.scene request (wiring.receiver.answer w request)))) _ :=
    .log _ _ _ (.scene request .started)
  refine track.trans (track.trans (track.trans (track.trans (track.touch hhand)
    (track.touch hentry)) (track.touch hlogged)) ?_) (track.touch (.fillIn _ _ _ _ _ _))
  refine track.carryOut (fun _ ha => ha) (fun token htoken v hv => ?_)
    ((Steady.note _ _).trans (.log _ _ _))
  split
  · exact hown v hv
  · next hother =>
      refine ⟨hrevive.steady token v, ?_⟩
      by_cases hdirect : wiring.receiver.IsDirect
      · obtain ⟨r, hcall⟩ := hdirect htoken
        exact absurd (Call.scene.inj hcall).1.symm hother
      · obtain ⟨_, htracked⟩ := hrevive.lawful hdirect (.acting 0) token v
        exact htracked

/-- A scene whose sequel is tracked. -/
theorem runScene {run : World → World} (hsteady : ∀ w, Steady w (run w))
    (hrun : ∀ w, P w (run w)) (request : SceneRequest) {sequel : Sequel}
    (w : World) (hsequel : alive = some sequel.engine) :
    P w (w.runScene wiring revive request sequel run) := by
  have hresume : ∀ v, Steady v (v.resume (fun _ => some run) w.tokens.length) :=
    Steady.resume (fun h w => Option.some.inj h ▸ hsteady w) _
  -- the first attempt on the token of the scene runs the sequel
  have hown : ∀ v, Steady (w.hand request (wiring.receiver.answer w request) (some sequel)) v →
      P v (v.resume (fun _ => some run) w.tokens.length) := by
    intro v hv
    obtain ⟨t, ht, -, -, hsome⟩ := hv.handed
    refine track.resume ?_ ?_
    · intro t' q run' ht' hq hrun'
      rw [ht, Option.some.injEq] at ht'
      rw [← ht', hsome, Option.some.injEq] at hq
      exact ⟨hq ▸ hsequel, fun w => Option.some.inj hrun' ▸ hrun w⟩
    · intro t' q _ _ hnone
      cases hnone
  have hplay : P w (w.playScene wiring revive request (some sequel)
      (World.resume (fun _ => some run) w.tokens.length)).2 :=
    track.playScene hrevive (fun q hq => Option.some.inj hq ▸ hsequel)
      fun v hv => ⟨hresume v, hown v hv⟩
  have hplayed : Steady (w.hand request (wiring.receiver.answer w request) (some sequel)) _ :=
    .handed_playScene hrevive.steady hresume request (some sequel) w
  unfold World.runScene
  simp only
  split
  -- declined: the token is resumed once more, and is used up after that
  · next hdeclined =>
      obtain ⟨t, ht, -, -, hsome⟩ := (hplayed.trans (hresume _)).handed
      refine track.trans (track.trans hplay (hown _ hplayed))
        (track.touch (.returned ht hsome hsequel fun _ => ?_))
      exact Steady.spent (fun h w => Option.some.inj h ▸ hsteady w) ht
  -- started: it is left to whoever holds the token
  · next hstarted =>
      obtain ⟨t, ht, -, hanswer, hsome⟩ := hplayed.handed
      refine track.trans hplay (track.touch (.returned ht hsome hsequel fun hdeclined => ?_))
      have hstart : wiring.receiver.answer w request = .started := hstarted
      rw [hanswer, hstart] at hdeclined
      cases hdeclined

end Calls

end Tracks

/-- A resumption by an engine, if its sequels are tracked. -/
theorem Tracks.follow {e : Engine} {wiring : Wiring} {P : World → World → Prop}
    (track : Tracks (some e.serial) wiring P) {reach : Reach}
    (hruns : ∀ actions w, P w (e.continueWith wiring reach actions w)) (token : Nat) (w : World) :
    P w (w.resume (e.follow wiring reach) token) := by
  refine track.resume ?_ ?_
  -- a sequel that is run belongs to this engine
  · intro t q run _ _ hfollow
    obtain ⟨hengine, rfl⟩ := Engine.follow_eq_some_iff.1 hfollow
    exact ⟨congrArg some hengine.symm, hruns q.actions⟩
  -- and one that is not run does not
  · intro t q _ _ hfollow halive
    have hengine : q.engine = e.serial := (Option.some.inj halive).symm
    rw [Engine.follow_eq_some_iff.2 ⟨hengine, rfl⟩] at hfollow
    cases hfollow

/-- Relations that are tracked hold of one run after another. -/
theorem Tracks.composes {alive : Option Nat} {wiring : Wiring} {P : Stage → World → World → Prop}
    (track : ∀ g, Tracks alive wiring (P g)) : Composes fun g u _ v => P g u v where
  stay := (track _).refl
  andThen _ _ h h' := (track _).trans h h'

/-- If the relations of all stages are tracked, runs of actions obey them. -/
theorem Tracks.acts {e : Engine} {wiring : Wiring} {P : Stage → World → World → Prop}
    (track : ∀ g, Tracks (some e.serial) wiring (P g)) :
    ActionLaw e wiring fun g u _ v => P g u v where
  toComposes := Tracks.composes track
  tally w f hf := (track _).touch (.counted w f hf)
  deed {k _} hrevive := (Tracks.composes track).deed (.acting k) hrevive.steady
    fun w hx => (track _).perform (hrevive.tracked _ id) w hx
  scene hrevive hrun request _ w hsequel :=
    (track _).runScene (hrevive.tracked _ id) hrun.steady
      (fun w => (hrun.lawful w).elim fun _ h => h) request w (congrArg some hsequel.symm)

/-! ## Steps -/

/-- The world after a candidate has taken effect: it is out of flight, recorded if it must be,
and announced if it has an id. -/
def World.fire (w : World) (c : Candidate) : World :=
  let w := (w.land c.position).changeGame c.event.record
  if c.event.hasId then w.note (.called (.effect (.eventCompleted c.event.id) true)) else w

/-- To show that something holds once a candidate has taken effect, it is enough to show it of the
landed candidate and that the announcement preserves it. -/
theorem World.fire_of {P : World → Prop} {w : World} {c : Candidate}
    (hlanded : P ((w.land c.position).changeGame c.event.record))
    (hcalled : ∀ {v}, P v → P (v.note (.called (.effect (.eventCompleted c.event.id) true)))) :
    P (w.fire c) := by
  unfold World.fire
  simp only
  split
  · exact hcalled hlanded
  · exact hlanded

/-- Counts an event that fired. -/
def World.tally (w : World) : World :=
  w.count fun n => { n with eventsFired := n.eventsFired + 1 }

/-- The announcement itself is part of what happens when a candidate takes effect; what the
receiver does about it is tracked, and the event is counted after that. -/
theorem Tracks.announce {alive : Option Nat} {wiring : Wiring} {P : World → World → Prop}
    (track : Tracks alive wiring P) {revive : Nat → World → World}
    (hrevive : Revives wiring (fun _ u _ v => P u v) revive) (c : Candidate) (v : World) :
    ∃ w, P (v.fire c) w ∧
      Engine.announce wiring revive c.event (v.land c.position) = w.tally := by
  refine ⟨_, ?_, rfl⟩
  unfold World.fire
  simp only
  split
  · exact track.trans (track.touch (.log _ _ _ _)) (track.carryOut_effect hrevive _ _ _)
  · exact track.refl _

/-- A step of an engine, if it is alive. Dispatches and candidates are opened and closed one at
a time. -/
inductive Step (e : Engine) (alive : Option Nat) (wiring : Wiring) :
    Stage → World → Stage → World → Prop where
  | touched {g : Stage} {u v : World} (h : Touch alive wiring u v) :
      Step e alive wiring g u g v
  /-- A receiver that is not direct may start anything from anywhere. -/
  | shifted {g g' : Stage} {w : World} (h : ¬ wiring.receiver.IsDirect) :
      Step e alive wiring g w g' w
  | stalled {w : World} : Step e alive wiring (.acting 0) w (.acting 0) (w.note .stalled)
  | refused {k : Nat} {w : World} (h : e.config.dispatch.maxDepth ≤ w.depth) :
      Step e alive wiring (.acting k) w (.acting k) (Engine.refuseDispatch w)
  | opened {k : Nat} {w : World} (h : ¬ e.config.dispatch.maxDepth ≤ w.depth) :
      Step e alive wiring (.acting (k + 1)) w (.ruling k) (Engine.openDispatch w)
  | closed {k : Nat} {w : World} : Step e alive wiring (.ruling k) w (.acting (k + 1)) w.leave
  | began {k : Nat} {t : String} {c : Candidate} {w : World} (hc : c ∈ e.catalog.candidates t)
      (ht : w.inFlight = [] ∨ t = Engine.raisedType) (hnew : c.position ∉ w.inFlight)
      (hlive : c.event.isCompleted w.game.state = false) :
      Step e alive wiring (.ruling k) w (.acting k) (Engine.begin c w)
  | landed {k : Nat} {c : Candidate} {rest : List Nat} {w : World}
      (h : w.inFlight = c.position :: rest) :
      Step e alive wiring (.acting k) w (.ruling k) (w.land c.position)
  | fired {k : Nat} {t : String} {c : Candidate} {rest : List Nat} {w : World}
      (hc : c ∈ e.catalog.candidates t) (h : w.inFlight = c.position :: rest) :
      Step e alive wiring (.acting k) w (.ruling k) (w.fire c)
  | tallied {k : Nat} {w : World} : Step e alive wiring (.ruling k) w (.ruling k) w.tally

/-- Steps one after another. -/
inductive Course (e : Engine) (alive : Option Nat) (wiring : Wiring) (g : Stage) (u : World) :
    Stage → World → Prop where
  | refl : Course e alive wiring g u g u
  | tail {h i : Stage} {v w : World} : Course e alive wiring g u h v → Step e alive wiring h v i w →
      Course e alive wiring g u i w

namespace Course

variable {e : Engine} {alive : Option Nat} {wiring : Wiring} {g g' h i : Stage} {u v w : World}

theorem trans (huv : Course e alive wiring g u h v) (hvw : Course e alive wiring h v i w) :
    Course e alive wiring g u i w := by
  induction hvw with
  | refl => exact huv
  | tail _ hs ih => exact ih.tail hs

theorem single (hs : Step e alive wiring g u h v) : Course e alive wiring g u h v := refl.tail hs

theorem touch (ht : Touch alive wiring u v) : Course e alive wiring g u g v :=
  single (.touched ht)

/-- What every step preserves holds at the end of a course if it holds at its start. -/
theorem induct {I : Stage → World → Prop}
    (hstep : ∀ {g u h v}, Step e alive wiring g u h v → I g u → I h v)
    (hc : Course e alive wiring g u h v) (hu : I g u) : I h v := by
  induction hc with
  | refl => exact hu
  | tail _ hs ih => exact hstep hs ih

/-- If the receiver is not direct, a course may run at any stage. -/
theorem shift (hfree : ¬ wiring.receiver.IsDirect) (hc : Course e alive wiring g u g v) :
    Course e alive wiring g' u g' v :=
  ((single (.shifted hfree)).trans hc).tail (.shifted hfree)

/-- At each stage courses track what is touched. -/
theorem tracks (g : Stage) : Tracks alive wiring fun u v => Course e alive wiring g u g v where
  refl _ := refl
  trans huv hvw := huv.trans hvw
  touch := touch

/-- The announcement of an event that took effect and has landed. -/
theorem announce {revive : Nat → World → World}
    (hrevive : Revives wiring (fun g u _ v => Course e alive wiring g u g v) revive) {k : Nat}
    {t : String} {c : Candidate} {rest : List Nat} {v : World}
    (hc : c ∈ e.catalog.candidates t) (hv : v.inFlight = c.position :: rest) :
    Course e alive wiring (.acting k) v (.ruling k)
      (Engine.announce wiring revive c.event (v.land c.position)) := by
  obtain ⟨w, hw, hannounce⟩ := (tracks _).announce (hrevive.tracked (.ruling k) id) c v
  rw [hannounce]
  exact ((single (.fired hc hv)).trans hw).tail .tallied

/-- **Everything an engine does is a course.** -/
theorem law (e : Engine) (wiring : Wiring) :
    Law e wiring [] fun g u _ v => Course e (some e.serial) wiring g u g v where
  toActionLaw := Tracks.acts tracks
  resumption _ _ _ hruns token w := by
    have hcourses := fun actions w => ((hruns actions).lawful w).elim fun _ h => h
    exact ⟨false, (tracks _).follow hcourses token w⟩
  stall _ := single .stalled
  refusal h := single (.refused h)
  nested hlimit _ h := ((single (.opened hlimit)).trans h).tail .closed
  flight {k revive t c w v took} hrevive hc ht hnew hlive hsteady h := by
    have hbegan := (single (.began hc ht hnew hlive)).trans h
    have hflight : v.inFlight = c.position :: w.inFlight := hsteady.inFlight
    split
    · exact hbegan.trans (announce hrevive hc hflight)
    · exact hbegan.tail (.landed hflight)
  mute hfree _ _ _ _ _ _ h := shift hfree h

end Course

end Narrative
