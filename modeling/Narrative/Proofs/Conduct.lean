import Narrative.Proofs.Candidacy
import Narrative.Proofs.Journal

set_option autoImplicit false

/-!
# An engine dispatch by dispatch

All candidates of a dispatch are decided about in one snapshot. What is said of a run may refer to
these snapshots, and then it cannot be put together from steps, which see no more than the world in
front of them. So here a dispatch is taken as a whole. A relation between worlds holds of
everything that an engine does if it holds of the small changes, and of each dispatch as long as it
holds of what happens inside (`Conduct.reach_lawful`). A dispatch consists of the turns of its
candidates (`Engine.sweep_induct`), and in a turn a candidate is passed over or executed
(`Engine.Turned`).

Such a relation holds of the moves of the host as well, if it allows for what the host does by
itself (`Play.Governed.move`); if it does not hold of all of that, it may hold as long as the engine
stays and announces all events (`Play.Steered.move`).
-/

namespace Narrative

/-! ## What is begun -/

/-- The candidates whose actions were begun since an earlier world, latest first. -/
def World.begun (u v : World) : List Candidate := (u.since v).filterMap (·.happening.candidate?)

namespace World

variable {u v w : World}

theorem begun_of_trace {new : List Moment} (h : v.trace = new ++ u.trace) :
    u.begun v = new.filterMap (·.happening.candidate?) := by
  rw [begun, since_of_trace h]

/-- What is not in the trace was not begun. -/
theorem begun_of_same (h : v.trace = u.trace) : u.begun v = [] :=
  begun_of_trace (List.nil_append u.trace ▸ h)

theorem begun_note (w : World) {x : Happening} (hx : x.candidate? = none) :
    w.begun (w.note x) = [] := by
  have htrace : (w.note x).trace = [⟨x, w.game, w.depth⟩] ++ w.trace := rfl
  simp [begun_of_trace htrace, hx]

/-- A candidate is begun when its execution starts. -/
theorem begun_begin (c : Candidate) (w : World) : w.begun (Engine.begin c w) = [c] := by
  have htrace : (Engine.begin c w).trace = [⟨.began c, w.game, w.depth⟩] ++ w.trace := rfl
  rw [begun_of_trace htrace]
  rfl

/-- What is begun in one run after another. -/
theorem begun_trans (huv : u.trace <:+ v.trace) (hvw : v.trace <:+ w.trace) :
    u.begun w = v.begun w ++ u.begun v := by
  rw [begun, since_trans huv hvw, List.filterMap_append, begun, begun]

end World

/-! ## Small changes -/

/-- Whatever was noted since an earlier world was noted while game and depth were as in that world. -/
def World.Plain (u v : World) : Prop := ∀ x ∈ u.since v, x.game = u.game ∧ x.depth = u.depth

theorem World.Plain.of_same {u v : World} (h : v.trace = u.trace) : u.Plain v := by
  intro x hx
  rw [World.since_of_trace (List.nil_append u.trace ▸ h)] at hx
  cases hx

theorem World.Plain.of_note {u v : World} {x : Happening}
    (h : v.trace = ⟨x, u.game, u.depth⟩ :: u.trace) : u.Plain v := by
  intro y hy
  rw [World.since_cons h, List.mem_singleton] at hy
  exact hy ▸ ⟨rfl, rfl⟩

namespace Touch

variable {alive : Option Nat} {wiring : Wiring} {u v : World}

/-- A touch is steady. -/
theorem steady (h : Touch alive wiring u v) : Steady u v := by
  cases h with
  | counted => exact .count u _
  | called => exact .note u _
  | logged => exact .write u _
  | changed => exact .changeGame u _
  | parked => exact .park u _
  | kept => exact .keep u _
  | handed => exact .hand u _ _ _
  | redeemed ht hp => exact .redeem ht hp
  | lapsed ht hp => exact .lapse ht hp
  | ignored | returned => exact .note u _

/-- A touch notes no more than one thing, before it changes the game. -/
theorem plain (h : Touch alive wiring u v) : u.Plain v := by
  cases h with
  | counted | changed | parked | kept | handed | logged => exact .of_same rfl
  | called | ignored | returned | redeemed | lapsed => exact .of_note rfl

/-- Nothing is begun by a touch. -/
theorem begun (h : Touch alive wiring u v) : u.begun v = [] := by
  cases h with
  | counted | changed | parked | kept | handed | logged => exact World.begun_of_same rfl
  | called | ignored | returned => exact World.begun_note u rfl
  | redeemed => exact World.begun_note (u.spend _ .resumed) rfl
  | lapsed => exact World.begun_note (u.spend _ .lapsed) rfl

end Touch

/-! ## Turns -/

namespace Engine

variable {e : Engine} {wiring : Wiring} {k : Nat} {s : SessionState} {payload : Payload}

/-- What a turn does to the world: the candidate is passed over, or it is eligible in the snapshot,
not recorded by then, and is executed. -/
inductive Turned (e : Engine) (wiring : Wiring) (reach : Reach) (s : SessionState)
    (payload : Payload) (c : Candidate) (w : World) : World → Prop where
  | passed {v : World} (hsteady : Steady w v) (hgame : v.game = w.game)
      (htrace : v.trace = w.trace) : Turned e wiring reach s payload c w v
  | executed {v : World} (took : Bool) (heligible : e.Eligible s w.inFlight payload c)
      (hlive : c.event.isCompleted w.game.state = false)
      (hrun : Action.runAll e wiring reach c.event.actions s
        (begin c (e.checked s payload c w)) = (took, v)) :
      Turned e wiring reach s payload c w
        (if took then announce wiring reach.revive c.event (v.land c.position)
        else v.land c.position)

/-- To look at conditions and trigger changes nothing but the counters. -/
theorem steady_checked (e : Engine) (s : SessionState) (payload : Payload) (c : Candidate)
    (w : World) : Steady w (e.checked s payload c w) := by
  simp only [checked, triggerMatches, conditionsHold]
  exact (Steady.count _ _).trans (.count _ _)

theorem turned {t : String} {c : Candidate} {w : World} {ran : Bool}
    (hc : c ∈ e.catalog.candidates t) (hs : ran = false → w.game.state = s) :
    e.Turned wiring (e.reach wiring k) s payload c w
      (e.rule wiring (e.reach wiring k) s payload ran c w).2 := by
  have law := Law.nothing e wiring w.inFlight
  have hsteady := (law.rule (law.reach_lawful k) hc (.inl rfl) hs payload).1.steady
  have hdecides := e.decides wiring (e.reach wiring k) s payload ran c w
  generalize e.rule wiring (e.reach wiring k) s payload ran c w = result at hdecides hsteady
  obtain ⟨verdict, v⟩ := result
  cases hdecides with
  | passed _ hgame htrace => exact .passed hsteady hgame htrace
  | @executed took v heligible hlive hfly =>
      have htook : (Action.runAll e wiring (e.reach wiring k) c.event.actions s
          (begin c (e.checked s payload c w))).1 = took := congrArg Prod.fst hfly
      rw [eq_land_of_fly hfly]
      exact .executed took heligible (not_recorded hs heligible hlive) (Prod.ext htook rfl)

/-- What is begun while a candidate is executed, if nothing is begun once it has landed. -/
theorem begun_flight {c : Candidate} {u x v : World} (hrun : Steady (begin c u) x)
    (hend : Steady (x.land c.position) v) (hquiet : (x.land c.position).begun v = []) :
    u.begun v = (begin c u).begun x ++ [c] := by
  have hflown : u.begun (x.land c.position) = (begin c u).begun x ++ u.begun (begin c u) :=
    World.begun_trans (List.suffix_cons _ _) hrun.trace
  have hland : Steady u (x.land c.position) := .land hrun
  rw [World.begun_trans hland.trace hend.trace, hquiet, List.nil_append, hflown,
    World.begun_begin]

/-- To open a dispatch and to close it begins nothing. -/
theorem begun_leave {w v : World} (h : Steady (openDispatch w) v) :
    w.begun v.leave = (openDispatch w).begun v := by
  have hopened : w.begun (openDispatch w) = [] :=
    World.begun_note w (x := .dispatched w.depth w.inFlight true) rfl
  have hboth := World.begun_trans (u := w) (List.suffix_cons _ _) h.trace
  rw [hopened, List.append_nil] at hboth
  exact hboth

/-- **What holds turn by turn holds of a sweep** over candidates. -/
theorem sweep_induct {Q : List Candidate → World → World → Prop} {t : String}
    {cs : List Candidate} {w : World} {ran : Bool} (hcs : ∀ c ∈ cs, c ∈ e.catalog.candidates t)
    (hs : ran = false → w.game.state = s) (hnil : ∀ w, Q [] w w)
    (hcons : ∀ {c rest u v w}, c ∈ e.catalog.candidates t →
      e.Turned wiring (e.reach wiring k) s payload c u v → Q rest v w → Q (c :: rest) u w) :
    Q cs w (sweep (e.rule wiring (e.reach wiring k) s payload) ran cs w).2 := by
  induction cs generalizing ran w with
  | nil => exact hnil w
  | cons c rest ih =>
      have hc := hcs c List.mem_cons_self
      have law := Law.nothing e wiring w.inFlight
      have hgame := (law.rule (law.reach_lawful k) hc (.inl rfl) hs payload).2
      refine hcons hc (turned hc hs) (ih (fun x hx => hcs x (List.mem_cons_of_mem c hx)) ?_)
      -- as long as nothing was executed the snapshot is the game of now
      intro hran
      obtain ⟨hbefore, hverdict⟩ := Bool.or_eq_false_iff.1 hran
      rw [hgame hverdict, hs hbefore]

end Engine

/-! ## Everything an engine does -/

/-- A relation between worlds that every touch obeys, and every dispatch as long as the runs inside
it do. Apart from the occurrences that the host reports only player actions are dispatched. -/
structure Conduct (e : Engine) (wiring : Wiring) (P : World → World → Prop) : Prop
    extends Tracks (some e.serial) wiring P where
  stalled : ∀ w : World, P w (w.note .stalled)
  dispatch : ∀ {k : Nat}, (e.reach wiring k).Lawful wiring (fun _ u _ v => P u v) k →
    ∀ {t : String} {w : World}, w.depth = 0 ∨ t = Engine.raisedType → ∀ payload,
      P w (e.dispatch wiring (e.reach wiring k) t payload w).2

namespace Conduct

variable {e : Engine} {wiring : Wiring} {P : World → World → Prop} (conduct : Conduct e wiring P)

include conduct

/-- Runs of actions obey the relation if what they reach does. -/
theorem acts : ActionLaw e wiring fun _ u _ v => P u v :=
  Tracks.acts (P := fun _ => P) fun _ => conduct.toTracks

/-- **The ways out of action lists obey the relation**, however many nested calls they leave room
for. -/
theorem reach_lawful (k : Nat) : (e.reach wiring k).Lawful wiring (fun _ u _ v => P u v) k := by
  have steady := fun k => (Law.nothing e wiring []).reach_lawful k
  induction k with
  | zero =>
      refine ⟨fun payload w => ⟨.note w _, conduct.stalled w⟩, (steady 0).revive.steady, ?_⟩
      exact fun _ _ _ w => ⟨false, conduct.stalled w⟩
  | succ k ih =>
      refine ⟨fun payload w => ⟨((steady (k + 1)).raise payload w).steady, ?_⟩,
        (steady (k + 1)).revive.steady, fun _ _ token w => ⟨false, ?_⟩⟩
      · exact conduct.dispatch ih (.inr rfl) payload
      · refine conduct.toTracks.follow (fun actions w => ?_) token w
        exact (conduct.acts.runAll ih actions w.game.state w).law

/-- An occurrence that the host reports is answered so. -/
theorem handle {w : World} (hw : w.depth = 0) (t : String) (payload : Payload) :
    P w (e.handle wiring t payload w).2 :=
  conduct.dispatch (conduct.reach_lawful _) (.inl hw) payload

/-- Actions that no event executes are run so. -/
theorem execute (actions : List Action) (s : SessionState) (w : World) :
    P w (e.execute wiring actions s w).2 :=
  (conduct.acts.runAll (conduct.reach_lawful _) actions s w).law

/-- What follows a scene is run so. -/
theorem continueWith (actions : List Action) (w : World) :
    P w (e.continueWith wiring (e.outlets wiring) actions w) :=
  conduct.execute actions w.game.state w

end Conduct

/-! ## Moves of the host -/

/-- A relation that what the engine of a play does obeys, if there is one, and what the host does by
itself while the engine stays. The host may change the game in the ways that `K` allows. -/
structure Play.Steered (p : Play) (K : (Game → Game) → Prop) (P : World → World → Prop) :
    Prop where
  conduct : ∀ e, p.engine = some e → Conduct e p.wiring P
  vacant : p.engine = none → Tracks none p.wiring P
  arranged : ∀ (w : World) {f : Game → Game}, K f → P w (w.changeGame f)
  seen : ∀ tutorial : Option String, K (·.seeTutorial tutorial)
  unqueued : ∀ (w : World) (queue : List Nat), P w { w with queue := queue }
  lost : ∀ (w : World) (serial : Nat), P w (w.note (.engineLost serial))

/-- A relation that holds as well if the host announces an event itself, or starts an engine. -/
structure Play.Governed (p : Play) (K : (Game → Game) → Prop) (P : World → World → Prop) : Prop
    extends p.Steered K P where
  announced : ∀ (w : World) (id : String),
    P w (w.note (.called (.effect (.eventCompleted id) true)))
  renewed : ∀ {w : World}, w.depth = 0 → w.inFlight = [] →
    P w { w with counters := {}, depth := 0, inFlight := [] }

namespace Play.Steered

variable {p : Play} {K : (Game → Game) → Prop} {P : World → World → Prop}
variable (steered : p.Steered K P)

include steered

/-- Whether or not there is an engine, what calls do to the world is tracked. -/
theorem tracks : ∃ alive, Tracks alive p.wiring P := by
  cases h : p.engine with
  | some e => exact ⟨_, (steered.conduct e h).toTracks⟩
  | none => exact ⟨_, steered.vacant h⟩

theorem refl (w : World) : P w w := steered.tracks.elim fun _ track => track.refl w

theorem trans {u v w : World} (h : P u v) (h' : P v w) : P u w :=
  steered.tracks.elim fun _ track => track.trans h h'

/-- Between moves a token is resumed so. -/
theorem resume (token : Nat) (w : World) : P w (p.resume token w) := by
  cases h : p.engine with
  | some e =>
      have hfollow : p.follow = e.follow p.wiring (e.outlets p.wiring) := by
        funext q
        rw [Play.follow, h, Option.bind_some]
      rw [Play.resume, hfollow]
      exact (steered.conduct e h).toTracks.follow (steered.conduct e h).continueWith token w
  | none =>
      have hfollow : p.follow = fun _ => none := by
        funext q
        rw [Play.follow, h, Option.bind_none]
      rw [Play.resume, hfollow]
      refine (steered.vacant h).resume (fun _ _ hrun => ?_) fun _ _ _ halive => ?_
      · cases hrun
      · cases halive

theorem revives : Revives p.wiring (fun _ u _ v => P u v) p.resume where
  steady token w := p.exists_manned.elim fun _ ⟨_, hman⟩ => Play.steady_resume hman token w
  lawful _ _ token w := ⟨false, steered.resume token w⟩

theorem withEngine {act : Engine → World → Answer × World}
    (hact : ∀ e, Conduct e p.wiring P → P p.world (act e p.world).2) :
    P p.world (p.withEngine act).2.world := by
  unfold Play.withEngine
  split
  · next e h => exact hact e (steered.conduct e h)
  · exact steered.refl _

theorem dropEngine : P p.world p.dropEngine.world := by
  unfold Play.dropEngine
  split
  · exact steered.lost _ _
  · exact steered.refl _

theorem finishScene : P p.world p.finishScene.2 := by
  unfold Play.finishScene
  split
  · exact steered.refl _
  · next token rest _ =>
      have hpop : P p.world { p.world with queue := rest } := steered.unqueued _ rest
      simp only
      split
      · next t _ =>
          have hseen := steered.arranged { p.world with queue := rest }
            (steered.seen t.request.tutorial?)
          exact steered.trans (steered.trans hpop hseen) (steered.resume _ _)
      · exact hpop

/-- A scene that the host asks for, and that nothing follows. -/
theorem scene (request : SceneRequest) : P p.world (p.playScene request).2 := by
  obtain ⟨alive, track⟩ := steered.tracks
  have hrevives := steered.revives
  refine track.playScene hrevives (fun q hq => by cases hq) fun v _ => ?_
  exact ⟨hrevives.steady _ v, steered.resume _ v⟩

/-- **Every move obeys the relation** whose own change to the game is allowed, unless the host
starts an engine or announces an event by it. -/
theorem move (hdepth : p.world.depth = 0) {m : Move} (hm : ∀ f, m.change? = some f → K f)
    (hstays : ∀ catalog config, m ≠ .restart catalog config)
    (hquiet : ∀ id, m ≠ .effect (.eventCompleted id)) : P p.world (p.move m).2.world := by
  cases m with
  | trigger t payload => exact steered.withEngine fun e conduct => conduct.handle hdepth t payload
  | occur o =>
      have ho : P p.world (o.prepare p.world) ∧ (o.prepare p.world).depth = 0 := by
        unfold Occurrence.prepare
        split
        · exact ⟨steered.arranged _ (hm _ rfl), hdepth⟩
        · exact ⟨steered.refl _, hdepth⟩
      refine steered.withEngine fun e conduct => ?_
      exact steered.trans ho.1 (conduct.handle ho.2 _ _)
  | perform actions => exact steered.withEngine fun e conduct => conduct.execute actions _ _
  | execute actions s => exact steered.withEngine fun e conduct => conduct.execute actions s _
  | finishScene => exact steered.finishScene
  | resumeKept index =>
      unfold Play.move
      simp only
      split
      · exact steered.resume _ _
      · exact steered.refl _
  | rewire wiring => exact steered.refl _
  | dropEngine =>
      rw [Play.move_dropEngine]
      exact steered.dropEngine
  | restart catalog config => exact absurd rfl (hstays catalog config)
  | setState | setRoom | markEvent => exact steered.arranged _ (hm _ rfl)
  | effect x =>
      obtain ⟨alive, track⟩ := steered.tracks
      exact track.perform steered.revives p.world fun id hx => hquiet id (congrArg Move.effect hx)
  | scene request => exact steered.scene request

/-- The relation takes up after an event that the host announces by itself. -/
theorem announce (id : String) :
    P (p.world.note (.called (.effect (.eventCompleted id) true)))
      (p.world.perform p.wiring p.resume (.eventCompleted id)).2 := by
  obtain ⟨alive, track⟩ := steered.tracks
  exact steered.trans (track.touch (.log _ _ _ _)) (track.carryOut_effect steered.revives _ _ _)

end Play.Steered

namespace Play.Governed

variable {p : Play} {K : (Game → Game) → Prop} {P : World → World → Prop}
variable (governed : p.Governed K P)

include governed

/-- An event that the host itself announces. -/
theorem announce (id : String) :
    P p.world (p.world.perform p.wiring p.resume (.eventCompleted id)).2 :=
  governed.trans (governed.announced p.world id) (governed.toSteered.announce id)

/-- **Every move obeys the relation** whose own change to the game is allowed. -/
theorem move (hdepth : p.world.depth = 0) (hflight : p.world.inFlight = []) {m : Move}
    (hm : ∀ f, m.change? = some f → K f) : P p.world (p.move m).2.world := by
  by_cases hstays : ∀ catalog config, m ≠ .restart catalog config
  · by_cases hquiet : ∀ id, m ≠ .effect (.eventCompleted id)
    · exact governed.toSteered.move hdepth hm hstays hquiet
    · obtain ⟨id, hid⟩ := not_forall.1 hquiet
      obtain rfl := not_not.1 hid
      exact governed.announce id
  · obtain ⟨catalog, hcatalog⟩ := not_forall.1 hstays
    obtain ⟨config, hconfig⟩ := not_forall.1 hcatalog
    obtain rfl := not_not.1 hconfig
    have hframe : p.dropEngine.world.depth = 0 ∧ p.dropEngine.world.inFlight = [] := by
      unfold Play.dropEngine
      split <;> exact ⟨hdepth, hflight⟩
    exact governed.trans governed.dropEngine (governed.renewed hframe.1 hframe.2)

end Play.Governed

/-! ## Runs of the host -/

/-- What a host may do: start engines of a kind, wire them to games of a kind, and change the game
by itself in the ways that `K` allows. -/
structure Move.Within (E : Engine → Prop) (W : Wiring → Prop) (K : (Game → Game) → Prop)
    (m : Move) : Prop where
  engine : ∀ {c : Catalog} {config : EngineConfig}, m = .restart c config →
    ∀ serial, E ⟨c, config, serial⟩
  wiring : ∀ {wiring : Wiring}, m = .rewire wiring → W wiring
  change : ∀ f, m.change? = some f → K f

/-- A play between moves, with an engine and a game of these kinds. -/
structure Play.Ready (E : Engine → Prop) (W : Wiring → Prop) (p : Play) : Prop where
  engine : ∀ e, p.engine = some e → E e
  wiring : W p.wiring
  depth : p.world.depth = 0
  inFlight : p.world.inFlight = []

/-- After a move the engine is the one that was there, or one that was started by it. -/
theorem Play.engine_move {p : Play} {m : Move} {e : Engine} (he : (p.move m).2.engine = some e) :
    p.engine = some e ∨ ∃ c config, m = .restart c config ∧ e = ⟨c, config, p.engines⟩ := by
  have hplain : m.IsPlain True → p.engine = some e := fun hm => (move_frame hm).1 ▸ he
  cases m with
  | rewire wiring => exact .inl he
  | dropEngine =>
      rw [move_dropEngine, p.frame_dropEngine.1] at he
      cases he
  | restart c config =>
      refine .inr ⟨c, config, rfl, ?_⟩
      have hnew : some (⟨c, config, p.dropEngine.engines⟩ : Engine) = some e := he
      rw [← Option.some.inj hnew, p.frame_dropEngine.2.1]
  | _ => exact .inl (hplain trivial)

namespace Play.Ready

variable {E : Engine → Prop} {W : Wiring → Prop} {K : (Game → Game) → Prop} {p : Play}

theorem start {catalog : Catalog} {config : EngineConfig} {wiring : Wiring}
    (he : E ⟨catalog, config, 0⟩) (hw : W wiring) (state : SessionState) :
    (Play.start catalog config wiring state).Ready E W := by
  refine ⟨fun e h => ?_, hw, rfl, rfl⟩
  have hnew : some (⟨catalog, config, 0⟩ : Engine) = some e := h
  exact Option.some.inj hnew ▸ he

theorem move (h : p.Ready E W) {m : Move} (hm : m.Within E W K) : (p.move m).2.Ready E W := by
  obtain ⟨hdepth, hflight⟩ := Play.guards_move h.inFlight m
  refine ⟨fun e he => ?_, ?_, hdepth h.depth, hflight⟩
  · rcases Play.engine_move he with hold | ⟨c, config, hrestart, rfl⟩
    · exact h.engine e hold
    · exact hm.engine hrestart _
  · by_cases hrewire : ∃ wiring, m = .rewire wiring
    · obtain ⟨wiring, rfl⟩ := hrewire
      exact hm.wiring rfl
    · rw [Play.wiring_move fun wiring heq => hrewire ⟨wiring, heq⟩]
      exact h.wiring

/-- **What holds of every move of such a host holds of its runs.** -/
theorem proceed {P : World → World → Prop} (hrefl : ∀ w, P w w)
    (htrans : ∀ {u v w}, P u v → P v w → P u w) (hdrain : ∀ w : World, P w { w with journal := [] })
    (hmove : ∀ {p : Play} {m : Move}, p.Ready E W → m.Within E W K →
      P p.world (p.move m).2.world)
    {steps : List HostStep} (hsteps : ∀ m, .move m ∈ steps → m.Within E W K) (h : p.Ready E W) :
    (p.proceed steps).play.Ready E W ∧ P p.world (p.proceed steps).play.world := by
  induction steps generalizing p with
  | nil => exact ⟨h, hrefl _⟩
  | cons step rest ih =>
      have hrest : ∀ m, .move m ∈ rest → m.Within E W K :=
        fun m hm => hsteps m (List.mem_cons_of_mem step hm)
      cases step with
      | move m =>
          have hm := hsteps m List.mem_cons_self
          obtain ⟨hready, hlater⟩ := ih hrest (h.move hm)
          exact ⟨hready, htrans (hmove h hm) hlater⟩
      | drain =>
          have hdrained : p.drain.2.Ready E W := ⟨h.engine, h.wiring, h.depth, h.inFlight⟩
          obtain ⟨hready, hlater⟩ := ih hrest hdrained
          exact ⟨hready, htrans (hdrain p.world) hlater⟩

end Play.Ready

end Narrative
