import Narrative.Proofs.Bookkeeping

set_option autoImplicit false

/-!
# What keeps a property of the game

Suppose it is known of a property of games which effects break it, in which games (`Upkeep`). A session
applies every effect that is called for, and whatever else it does to its game leaves the property
alone. So a run from a game with the property keeps it, at every moment and at the end, exactly if
none of the calls made is one that breaks it (`Upkeep.run`).
-/

namespace Narrative

/-- A change of the game after which a property holds exactly if it did before. -/
def Leaves (Inv : Game → Prop) (f : Game → Game) : Prop := ∀ g, Inv (f g) ↔ Inv g

/-- A property of games that holds on after an effect unless the effect is one that breaks it, and
that has nothing to do with events, tutorials and rooms. -/
structure Upkeep (Inv : Game → Prop) (Breaks : Game → Effect → Prop) : Prop where
  apply : ∀ {g : Game}, Inv g → ∀ x : Effect, Inv (g.apply x) ↔ ¬Breaks g x
  marked : ∀ event : String, Leaves Inv (·.markEvent event)
  seen : ∀ tutorial : Option String, Leaves Inv (·.seeTutorial tutorial)
  entered : ∀ room : String, Leaves Inv (·.enterRoom room)

/-- A moment at which no effect is called for that breaks a property. -/
def Moment.Harmless (Breaks : Game → Effect → Prop) (m : Moment) : Prop :=
  ∀ x ∈ m.happening.effect?, ¬Breaks m.game x

/-- Since the trace was `base` a property has been kept exactly if no call broke it. -/
def Upkept (Inv : Game → Prop) (Breaks : Game → Effect → Prop) (base : List Moment) (w : World) :
    Prop :=
  ∃ new, w.trace = new ++ base ∧
    (((∀ m ∈ new, Inv m.game) ∧ Inv w.game) ↔ ∀ m ∈ new, m.Harmless Breaks)

section

variable {Inv : Game → Prop} {Breaks : Game → Effect → Prop} {base : List Moment} {u v w : World}

theorem Upkept.start (h : Inv w.game) : Upkept Inv Breaks w.trace w :=
  ⟨[], rfl, by simp [h]⟩

/-- A change that leaves the property and the trace alone. -/
theorem Upkept.same (hu : Upkept Inv Breaks base u) (hgame : Inv v.game ↔ Inv u.game)
    (htrace : v.trace = u.trace) : Upkept Inv Breaks base v := by
  obtain ⟨new, hnew, hkept⟩ := hu
  refine ⟨new, htrace.trans hnew, ?_⟩
  rw [hgame]
  exact hkept

/-- Something happens that is no call for an effect. -/
theorem Upkept.note {x : Happening} (hu : Upkept Inv Breaks base u) (hx : x.effect? = none) :
    Upkept Inv Breaks base (u.note x) := by
  obtain ⟨new, hnew, hkept⟩ := hu
  have hharmless : Moment.Harmless Breaks ⟨x, u.game, u.depth⟩ := by
    intro y hy
    rw [hx] at hy
    cases hy
  refine ⟨⟨x, u.game, u.depth⟩ :: new, congrArg _ hnew, ?_⟩
  rw [List.forall_mem_cons, List.forall_mem_cons, and_iff_right hharmless, ← hkept]
  exact ⟨fun ⟨⟨_, hbefore⟩, hnow⟩ => ⟨hbefore, hnow⟩, fun ⟨hbefore, hnow⟩ => ⟨⟨hnow, hbefore⟩, hnow⟩⟩

namespace Upkeep

variable (upkeep : Upkeep Inv Breaks)

include upkeep

/-- An effect is called for, and the game applies it. -/
theorem call (hu : Upkept Inv Breaks base u) (x : Effect) : Upkept Inv Breaks base
    ((u.note (.called (.effect x (u.game.accepts x)))).changeGame (·.apply x)) := by
  obtain ⟨new, hnew, hkept⟩ := hu
  have hharmless : Moment.Harmless Breaks ⟨.called (.effect x (u.game.accepts x)), u.game, u.depth⟩ ↔
      ¬Breaks u.game x := by
    constructor
    · exact fun h => h x rfl
    · intro h y hy
      obtain rfl := Option.some.inj hy
      exact h
  refine ⟨⟨.called (.effect x (u.game.accepts x)), u.game, u.depth⟩ :: new, congrArg _ hnew, ?_⟩
  rw [List.forall_mem_cons, List.forall_mem_cons, ← hkept, hharmless]
  -- until now the property was kept on both sides, so the effect decides
  constructor
  · rintro ⟨⟨hnow, hbefore⟩, hafter⟩
    exact ⟨(upkeep.apply hnow x).1 hafter, hbefore, hnow⟩
  · rintro ⟨hquiet, hbefore, hnow⟩
    exact ⟨⟨hnow, hbefore⟩, (upkeep.apply hnow x).2 hquiet⟩

/-- Whatever happens over a session, the property is kept exactly if no call breaks it. -/
theorem invariant (base : List Moment) : TraceInvariant (Leaves Inv) (Upkept Inv Breaks base) where
  same hu hgame htrace := hu.same (by rw [hgame]) htrace
  arranged hu hf := hu.same (hf _) rfl
  noted hu hx := hu.note hx
  called hu x := upkeep.call hu x
  marked := upkeep.marked
  seen := upkeep.seen
  entered := upkeep.entered

/-- **A run over a session keeps the property**, at every moment and at the end, exactly if no call
that is made breaks it. -/
theorem run {p : Play} (hsession : ∃ screen, p.wiring.receiver = .session screen)
    (hinv : Inv p.world.game) {moves : List Move} (hmoves : ∀ m ∈ moves, m.KeepsBooks) :
    ∃ new, (p.run moves).world.trace = new ++ p.world.trace ∧
      (((∀ m ∈ new, Inv m.game) ∧ Inv (p.run moves).world.game) ↔
        ∀ m ∈ new, m.Harmless Breaks) :=
  (upkeep.invariant p.world.trace).run hsession hmoves (Upkept.start hinv)

end Upkeep

end

end Narrative
