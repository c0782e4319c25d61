import Narrative.Play
import Narrative.Proofs.Steps

set_option autoImplicit false

/-!
# The moves of the host

A move that leaves the engine as it is takes the world through passages: courses of the
engine, and small changes that the host makes itself (`Passage`). What every passage
preserves is preserved by every such move (`Play.move_invariant`).
-/

namespace Narrative

/-- A change of the game that leaves the record of fired events alone. -/
def KeepsRecord (f : Game → Game) : Prop :=
  ∀ g, (f g).state.completedEvents = g.state.completedEvents

theorem Game.keepsRecord_enterRoom (room : String) : KeepsRecord (·.enterRoom room) :=
  fun _ => rfl

theorem Game.keepsRecord_seeTutorial (tutorial : Option String) :
    KeepsRecord (·.seeTutorial tutorial) := by
  cases tutorial <;> exact fun _ => rfl

/-- The moves that leave the engine and its wiring as they are. Some of them may touch the
record of fired events or call the game, and are made only by a `lax` host. -/
def Move.IsPlain (lax : Prop) : Move → Prop
  | .trigger .. | .occur _ | .perform _ | .execute .. => True
  | .finishScene | .resumeKept _ | .setRoom _ => True
  | .setState _ | .markEvent _ | .effect _ | .scene _ => lax
  | .rewire _ | .dropEngine | .restart .. => False

/-- The moves that ask the engine for something. -/
def Move.IsAsk : Move → Prop
  | .trigger .. | .occur _ | .perform _ | .execute .. => True
  | _ => False

theorem Move.IsAsk.isPlain {m : Move} (hm : m.IsAsk) (lax : Prop) : m.IsPlain lax := by
  cases m with
  | trigger | occur | perform | execute => trivial
  | _ => exact hm.elim

/-- What the world goes through in a plain move. -/
inductive Passage (e : Engine) (alive : Option Nat) (wiring : Wiring) (lax : Prop) :
    World → World → Prop where
  | course {k : Nat} {u v : World} (hk : e.clock wiring ≤ k) (hs : Steady u v)
      (hc : Course e alive wiring (.acting k) u (.acting k) v) :
      Passage e alive wiring lax u v
  | arranged (w : World) {f : Game → Game} (h : lax ∨ KeepsRecord f) :
      Passage e alive wiring lax w (w.changeGame f)
  | unqueued (w : World) (queue : List Nat) :
      Passage e alive wiring lax w { w with queue := queue }
  | called (w : World) (entry : Entry) (h : lax) :
      Passage e alive wiring lax w (w.note (.called entry))

/-- A passage leaves the guards as they were. -/
theorem Passage.guards {e : Engine} {alive : Option Nat} {wiring : Wiring} {lax : Prop}
    {u v : World} (h : Passage e alive wiring lax u v) :
    v.depth = u.depth ∧ v.inFlight = u.inFlight := by
  cases h with
  | course _ hs => exact ⟨hs.depth, hs.inFlight⟩
  | arranged | unqueued | called => exact ⟨rfl, rfl⟩

/-- The number of the engine that is alive in a play. An engine that nobody runs stands for
none. -/
inductive Play.Manned (p : Play) (e : Engine) : Option Nat → Prop where
  | running (h : p.engine = some e) : Manned p e (some e.serial)
  | vacant (h : p.engine = none) : Manned p e none

theorem Play.exists_manned (p : Play) : ∃ e alive, p.Manned e alive := by
  cases h : p.engine with
  | some e => exact ⟨e, _, .running h⟩
  | none => exact ⟨{}, _, .vacant h⟩

namespace Play

variable {p : Play} {e : Engine} {alive : Option Nat} {lax : Prop} {m : Move}

/-- Dropping the engine has no effect on a play without one. -/
theorem move_dropEngine (p : Play) : (p.move .dropEngine).2 = p.dropEngine := by
  unfold move dropEngine
  cases h : p.engine with
  | some e => rfl
  | none => rfl

/-- An engine that is dropped leaves the rest of the play. -/
theorem frame_dropEngine (p : Play) :
    p.dropEngine.engine = none ∧ p.dropEngine.engines = p.engines ∧
      p.dropEngine.wiring = p.wiring := by
  unfold Play.dropEngine
  cases h : p.engine with
  | none => exact ⟨h, rfl, rfl⟩
  | some e => exact ⟨rfl, rfl, rfl⟩

/-- A plain move leaves the engine and its wiring as they are. -/
theorem move_frame (hm : m.IsPlain lax) :
    (p.move m).2.engine = p.engine ∧ (p.move m).2.wiring = p.wiring ∧
      (p.move m).2.engines = p.engines := by
  have hengine : ∀ act, (p.withEngine act).2.engine = p.engine ∧
      (p.withEngine act).2.wiring = p.wiring ∧ (p.withEngine act).2.engines = p.engines := by
    intro act
    unfold withEngine
    split <;> simp
  cases m with
  | trigger | occur | perform | execute => exact hengine _
  | resumeKept index =>
      unfold move
      simp only
      split <;> simp
  | finishScene | setState | setRoom | markEvent | effect | scene => exact ⟨rfl, rfl, rfl⟩
  | rewire | dropEngine | restart => exact hm.elim

section Manned

variable (hman : p.Manned e alive)

include hman

/-- A resumption between moves is steady. -/
theorem steady_resume (token : Nat) (w : World) : Steady w (p.resume token w) := by
  refine Steady.resume (fun {q run} hfollow w => ?_) token w
  cases hman with
  | vacant h => simp [follow, h] at hfollow
  | running h =>
      rw [follow, h, Option.bind_some] at hfollow
      obtain ⟨-, rfl⟩ := Engine.follow_eq_some_iff.1 hfollow
      exact ((Course.law e p.wiring).runs_outlets q.actions).steady w

/-- A resumption between moves is a course. -/
theorem course_resume (token : Nat) (w : World) :
    Course e alive p.wiring (.acting (e.clock p.wiring)) w (.acting (e.clock p.wiring))
      (p.resume token w) := by
  cases hman with
  | vacant h =>
      rw [Play.resume]
      refine (Course.tracks _).resume (fun _ _ hfollow => ?_) fun _ _ _ halive => ?_
      -- without an engine no sequel is run, and none belongs to a living one
      · simp [follow, h] at hfollow
      · cases halive
  | running h =>
      have hfollow : p.follow = e.follow p.wiring (e.outlets p.wiring) := by
        funext q
        simp only [follow, h, Option.bind_some]
      rw [Play.resume, hfollow]
      refine (Course.tracks _).follow (fun actions w => ?_) token w
      exact (((Course.law e p.wiring).runs_outlets actions).lawful w).elim fun _ h => h

theorem revives : Revives p.wiring (fun _ u _ v => Course e alive p.wiring
    (.acting (e.clock p.wiring)) u (.acting (e.clock p.wiring)) v) p.resume where
  steady token w := steady_resume hman token w
  lawful _ _ token w := ⟨false, course_resume hman token w⟩

/-- What an act of the engine preserves is preserved if there is no engine to act. -/
theorem withEngine_of {P : World → Prop} {act : Engine → World → Answer × World}
    (hp : P p.world) (hact : alive = some e.serial → P (act e p.world).2) :
    P (p.withEngine act).2.world := by
  cases hman with
  | vacant h => rwa [withEngine, h]
  | running h =>
      rw [withEngine, h]
      exact hact rfl

/-- **What every passage preserves, every plain move preserves.** -/
theorem move_invariant {I : World → Prop}
    (hI : ∀ {u v}, Passage e alive p.wiring lax u v → I u → I v) (hm : m.IsPlain lax)
    (hidle : p.world.inFlight = []) (hp : I p.world) : I (p.move m).2.world := by
  have hlawful : ∀ {k u b v}, e.clock p.wiring ≤ k →
      Lawful (fun g u _ v => Course e alive p.wiring g u g v) (.acting k) u b v → I u → I v :=
    fun hk h => hI (.course hk h.steady h.law)
  have hresume : ∀ token w, I w → I (p.resume token w) := fun token w =>
    hI (.course (Nat.le_refl _) (steady_resume hman token w) (course_resume hman token w))
  have hchange : ∀ {f w}, KeepsRecord f → I w → I (w.changeGame f) :=
    fun hf => hI (.arranged _ (.inr hf))
  cases m with
  | trigger type payload =>
      refine withEngine_of hman hp ?_
      rintro rfl
      exact hlawful (Nat.le_succ _) ((Course.law e p.wiring).handle hidle type payload) hp
  | occur o =>
      -- entering a room changes the game before the engine hears of it
      have ho : I (o.prepare p.world) ∧ (o.prepare p.world).inFlight = [] := by
        unfold Occurrence.prepare
        split
        · exact ⟨hchange (Game.keepsRecord_enterRoom _) hp, hidle⟩
        · exact ⟨hp, hidle⟩
      refine withEngine_of hman hp ?_
      rintro rfl
      exact hlawful (Nat.le_succ _) ((Course.law e p.wiring).handle ho.2 _ _) ho.1
  | perform actions =>
      refine withEngine_of hman hp ?_
      rintro rfl
      exact hlawful (Nat.le_refl _) ((Course.law e p.wiring).execute actions _ _) hp
  | execute actions s =>
      refine withEngine_of hman hp ?_
      rintro rfl
      exact hlawful (Nat.le_refl _) ((Course.law e p.wiring).execute actions s _) hp
  | finishScene =>
      -- the scene leaves the queue whether or not its token can be found
      have hpop : ∀ queue, I { p.world with queue := queue } :=
        fun queue => hI (.unqueued _ queue) hp
      unfold move finishScene
      simp only
      split
      · exact hp
      · split
        · exact hresume _ _ (hchange (Game.keepsRecord_seeTutorial _) (hpop _))
        · exact hpop _
  | resumeKept index =>
      unfold move
      simp only
      split
      · exact hresume _ _ hp
      · exact hp
  | setRoom room => exact hchange (Game.keepsRecord_enterRoom room) hp
  | setState s =>
      have hset : Passage e alive p.wiring lax p.world
          (p.world.changeGame fun g => { g with state := s }) := .arranged _ (.inl hm)
      exact hI hset hp
  | markEvent event =>
      have hmark : Passage e alive p.wiring lax p.world
          (p.world.changeGame (·.markEvent event)) := .arranged _ (.inl hm)
      exact hI hmark hp
  | effect x =>
      have hlax : lax := hm
      have hrevives := revives hman
      -- an announcement by the host itself is no course of the engine
      by_cases hx : ∃ id, x = .eventCompleted id
      · obtain ⟨id, rfl⟩ := hx
        have hnoted : I (p.world.note (.called (.effect (.eventCompleted id) true))) :=
          hI (.called _ _ hlax) hp
        refine hI (.course (Nat.le_refl _) ?_ ?_) hnoted
        · exact (Steady.log _ _ _).trans (.carryOut hrevives.steady _ _)
        · exact (Course.touch (.log _ _ _ _)).trans
            ((Course.tracks _).carryOut_effect hrevives _ _ _)
      · refine hI (.course (Nat.le_refl _) (.perform hrevives.steady x _) ?_) hp
        exact (Course.tracks _).perform hrevives p.world fun id h => hx ⟨id, h⟩
  | scene request =>
      have hrevives := revives hman
      have hown := fun v => steady_resume hman p.world.tokens.length v
      refine hI (.course (Nat.le_refl _) (.playScene hrevives.steady hown request none _) ?_) hp
      -- nothing follows a scene that the host asks for
      refine (Course.tracks _).playScene hrevives (fun q hq => ?_) fun v _ => ⟨hown v, ?_⟩
      · cases hq
      · exact course_resume hman p.world.tokens.length v
  | rewire | dropEngine | restart => exact hm.elim

end Manned

/-- Between moves no event is in flight, and no dispatch is open if none was to begin with. -/
theorem guards_move {p : Play} (hidle : p.world.inFlight = []) (m : Move) :
    (p.world.depth = 0 → (p.move m).2.world.depth = 0) ∧ (p.move m).2.world.inFlight = [] := by
  obtain ⟨e, alive, hman⟩ := p.exists_manned
  have hdropped : p.dropEngine.world.depth = p.world.depth ∧ p.dropEngine.world.inFlight = [] := by
    unfold dropEngine
    split <;> exact ⟨rfl, hidle⟩
  have hplain : m.IsPlain True →
      (p.move m).2.world.depth = p.world.depth ∧ (p.move m).2.world.inFlight = [] := fun hm =>
    move_invariant hman (I := fun w => w.depth = p.world.depth ∧ w.inFlight = [])
      (fun h hu => ⟨h.guards.1.trans hu.1, h.guards.2.trans hu.2⟩) hm hidle ⟨rfl, hidle⟩
  cases m with
  | rewire wiring => exact ⟨id, hidle⟩
  | dropEngine =>
      rw [move_dropEngine]
      exact ⟨hdropped.1.trans, hdropped.2⟩
  | restart catalog config => exact ⟨fun _ => rfl, rfl⟩
  | _ => exact ⟨(hplain trivial).1.trans, (hplain trivial).2⟩

theorem idle_move {p : Play} (hidle : p.world.inFlight = []) (m : Move) :
    (p.move m).2.world.inFlight = [] :=
  (guards_move hidle m).2

/-- **What every passage and the loss of the engine preserve, every run preserves** that neither
exchanges the engine nor its wiring. -/
theorem run_invariant {wiring : Wiring} {I : World → Prop} {moves : List Move}
    (hI : ∀ {alive u v}, Passage e alive wiring lax u v → I u → I v)
    (hlost : ∀ {w}, I w → ∀ serial, I (w.note (.engineLost serial)))
    (hmoves : ∀ m ∈ moves, m.IsPlain lax ∨ m = .dropEngine)
    (hengine : p.engine = some e ∨ p.engine = none) (hwiring : p.wiring = wiring)
    (hidle : p.world.inFlight = []) (hp : I p.world) : I (p.run moves).world := by
  -- the next move needs an idle world, so this is carried along
  have hboth : ∀ {alive u v}, Passage e alive wiring lax u v → u.inFlight = [] ∧ I u →
      v.inFlight = [] ∧ I v := fun h hu => ⟨h.guards.2.trans hu.1, hI h hu.2⟩
  induction moves generalizing p with
  | nil => exact hp
  | cons m rest ih =>
      have hrest : ∀ m ∈ rest, m.IsPlain lax ∨ m = .dropEngine :=
        fun x hx => hmoves x (List.mem_cons_of_mem m hx)
      have hnext : ((p.move m).2.world.inFlight = [] ∧ I (p.move m).2.world) ∧
          (p.move m).2.wiring = p.wiring ∧
          ((p.move m).2.engine = some e ∨ (p.move m).2.engine = none) := by
        subst hwiring
        rcases hmoves m List.mem_cons_self with hplain | rfl
        · obtain ⟨hsame, hwired, -⟩ := move_frame (p := p) hplain
          rw [hsame]
          refine ⟨?_, hwired, hengine⟩
          rcases hengine with h | h
          · exact move_invariant (.running h) hboth hplain hidle ⟨hidle, hp⟩
          · exact move_invariant (.vacant h) hboth hplain hidle ⟨hidle, hp⟩
        · rcases hengine with h | h
          -- an engine that is gone stays gone, as no move starts another
          · rw [move_dropEngine, dropEngine, h]
            exact ⟨⟨hidle, hlost hp _⟩, rfl, .inr rfl⟩
          · rw [move_dropEngine, dropEngine, h]
            exact ⟨⟨hidle, hp⟩, rfl, .inr h⟩
      obtain ⟨⟨hidle', hworld⟩, hwired, hengine'⟩ := hnext
      exact ih hrest hengine' (hwired.trans hwiring) hidle' hworld

end Play

/-! ## Runs in which the journal is read -/

/-- What a host does: it makes a move, or takes out what is in the journal. -/
inductive HostStep where
  | move (m : Move)
  | drain

/-- What comes of a run: the answers to the moves, the entries that were taken out, and the play at
its end. -/
structure Proceedings where
  answers : List Answer
  taken : List Entry
  play : Play

/-- Does what the host does, one step after the other. -/
def Play.proceed (p : Play) : List HostStep → Proceedings
  | [] => ⟨[], [], p⟩
  | .move m :: rest =>
      let (answer, p) := p.move m
      let later := p.proceed rest
      { later with answers := answer :: later.answers }
  | .drain :: rest =>
      let (entries, p) := p.drain
      let later := p.proceed rest
      { later with taken := entries ++ later.taken }

end Narrative
