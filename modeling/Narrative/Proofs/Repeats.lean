import Narrative.Proofs.Conduct

set_option autoImplicit false

/-!
# How often an event is begun

The candidates that were begun in a run are read off its trace; `World.timesBegun` counts those at a
position. An event that must not fire again is begun once at most: it is not begun while it is in
flight, and once it has taken effect it is recorded, which is looked up again before each turn
(`Singly`).
-/

namespace Narrative

/-! ## Counting -/

/-- How often the event at a position was begun since an earlier world. -/
def World.timesBegun (u v : World) (position : Nat) : Nat :=
  (u.begun v).countP (·.position == position)

namespace World

variable {u v w : World} {position : Nat}

theorem timesBegun_trans (huv : u.trace <:+ v.trace) (hvw : v.trace <:+ w.trace) :
    u.timesBegun w position = v.timesBegun w position + u.timesBegun v position := by
  rw [timesBegun, begun_trans huv hvw, List.countP_append, timesBegun, timesBegun]

theorem timesBegun_of_begun (h : u.begun v = []) : u.timesBegun v position = 0 := by
  rw [timesBegun, h, List.countP_nil]

/-- To open a dispatch and to close it begins nothing. -/
theorem timesBegun_leave (h : Steady (Engine.openDispatch w) v) :
    w.timesBegun v.leave position = (Engine.openDispatch w).timesBegun v position := by
  rw [timesBegun, Engine.begun_leave h, timesBegun]

theorem begun_refuseDispatch (w : World) : w.begun (Engine.refuseDispatch w) = [] :=
  begun_note w (x := .dispatched w.depth w.inFlight false) rfl

/-- A candidate that is executed is begun once itself. -/
theorem timesBegun_flight {c : Candidate} {x : World} (hrun : Steady (Engine.begin c u) x)
    (hend : Steady (x.land c.position) v) (hquiet : (x.land c.position).begun v = []) :
    u.timesBegun v position =
      (Engine.begin c u).timesBegun x position + [c].countP (·.position == position) := by
  rw [timesBegun, Engine.begun_flight hrun hend hquiet, List.countP_append, timesBegun]

end World

section Session

variable {wiring : Wiring} {screen : Screen} (hsession : wiring.receiver = .session screen)

include hsession

/-- The announcement of an event begins nothing. -/
theorem World.begun_announce (revive : Nat → World → World) (event : Event) (w : World) :
    w.begun (Engine.announce wiring revive event w) = [] := by
  unfold Engine.announce
  simp only
  split
  · rw [perform_session hsession]
    have htrace : (((w.changeGame event.record).settle wiring (.eventCompleted event.id)).count
        fun n => { n with eventsFired := n.eventsFired + 1 }).trace = [_] ++ w.trace :=
      trace_settle _ _ _
    rw [begun_of_trace htrace]
    rfl
  · exact begun_of_same rfl

end Session

/-! ## Events that must not fire again -/

/-- What a run is like with an event that must not fire again and that takes effect whenever its
actions are run. It is not begun if it is recorded or in flight, and else once at most; then it is
recorded. -/
structure Singly (g : Candidate) (u v : World) : Prop where
  steady : Steady u v
  kept : g.event.isCompleted u.game.state = true → g.event.isCompleted v.game.state = true
  idle : g.event.isCompleted u.game.state = true ∨ g.position ∈ u.inFlight →
    u.timesBegun v g.position = 0
  once : u.timesBegun v g.position ≠ 0 →
    u.timesBegun v g.position = 1 ∧ g.event.isCompleted v.game.state = true

/-- A change of the game after which an event is recorded if it was recorded before. -/
def KeepsCompleted (event : Event) (f : Game → Game) : Prop :=
  ∀ g, event.isCompleted g.state = true → event.isCompleted (f g).state = true

theorem KeepsRecord.keepsCompleted {f : Game → Game} (h : KeepsRecord f) (event : Event) :
    KeepsCompleted event f := by
  intro g hg
  rwa [Event.isCompleted, h g]

theorem Event.keepsCompleted_record (event other : Event) :
    KeepsCompleted event other.record := by
  intro g hg
  obtain ⟨honce, hrecorded⟩ := Bool.and_eq_true_iff.1 hg
  exact Bool.and_eq_true_iff.2 ⟨honce, (OnceLaw.contains_record other g event.id).2 (.inr hrecorded)⟩

/-- An event that must not fire again is recorded when it fires. -/
theorem Event.isCompleted_record {event : Event} (h : event.isOnce = true) (g : Game) :
    event.isCompleted (event.record g).state = true :=
  Bool.and_eq_true_iff.2 ⟨h, (OnceLaw.contains_record event g event.id).2 (.inl ⟨h, rfl⟩)⟩

/-- The announcement of an event leaves the record as the event has left it. -/
theorem World.completedEvents_announce {wiring : Wiring} {screen : Screen}
    (hsession : wiring.receiver = .session screen) (revive : Nat → World → World) (event : Event)
    (w : World) : (Engine.announce wiring revive event w).game.state.completedEvents =
      (event.record w.game).state.completedEvents := by
  unfold Engine.announce
  simp only
  split
  · rw [perform_session hsession]
    have hgame := (w.changeGame event.record).game_settle wiring (.eventCompleted event.id)
    show ((w.changeGame event.record).settle wiring
      (.eventCompleted event.id)).game.state.completedEvents = _
    rw [hgame]
    exact Game.keepsRecord_apply _ _
  · rfl

namespace Singly

variable {g : Candidate} {u v w : World}

/-- Nothing is begun. -/
theorem quiet (hsteady : Steady u v)
    (hkept : g.event.isCompleted u.game.state = true → g.event.isCompleted v.game.state = true)
    (hbegun : u.begun v = []) : Singly g u v := by
  have hnone : u.timesBegun v g.position = 0 := World.timesBegun_of_begun hbegun
  exact ⟨hsteady, hkept, fun _ => hnone, fun h => absurd hnone h⟩

theorem refl (w : World) : Singly g w w := quiet (.refl w) id (World.begun_of_same rfl)

theorem trans (h : Singly g u v) (h' : Singly g v w) : Singly g u w := by
  have htimes : u.timesBegun w g.position = _ :=
    World.timesBegun_trans h.steady.trace h'.steady.trace
  refine ⟨h.steady.trans h'.steady, fun hu => h'.kept (h.kept hu), fun hidle => ?_, fun hpos => ?_⟩
  · rw [htimes, h.idle hidle, h'.idle]
    exact hidle.imp h.kept fun hflight => h.steady.inFlight ▸ hflight
  · rw [htimes] at hpos ⊢
    by_cases hnone : u.timesBegun v g.position = 0
    · rw [hnone, Nat.add_zero] at hpos ⊢
      exact h'.once hpos
    -- it was recorded in the first run, so it was not begun in the second
    · obtain ⟨hone, hrecorded⟩ := h.once hnone
      rw [hone, h'.idle (.inl hrecorded)]
      exact ⟨rfl, h'.kept hrecorded⟩

/-- Calls and scenes leave the record alone, and begin nothing. -/
theorem tracks {wiring : Wiring} {screen : Screen} (hsession : wiring.receiver = .session screen)
    (alive : Option Nat) : Tracks alive wiring (Singly g) where
  refl := refl
  trans := trans
  touch {u v} h := by
    refine quiet h.steady ?_ h.begun
    cases h with
    | changed _ hf =>
        rw [hsession] at hf
        exact (Receiver.keepsRecord_session screen hf).keepsCompleted g.event u.game
    | _ => exact id

/-- A candidate is executed that was not recorded, and nothing is begun once it has landed. If it is
the event itself, it cannot be begun by the dispatches inside, as it is in flight, and it is
recorded. -/
theorem of_flight {c : Candidate} {x : World} (hrun : Singly g (Engine.begin c u) x)
    (hend : Steady (x.land c.position) v) (hquiet : (x.land c.position).begun v = [])
    (hkept : g.event.isCompleted x.game.state = true → g.event.isCompleted v.game.state = true)
    (hgrounded : c.position ∉ u.inFlight)
    (hsame : c.position = g.position → g.event.isCompleted u.game.state = false ∧
      g.event.isCompleted v.game.state = true) :
    Singly g u v := by
  have hsteady : Steady u v := (Steady.land hrun.steady).trans hend
  have htimes : u.timesBegun v g.position = _ := World.timesBegun_flight hrun.steady hend hquiet
  refine ⟨hsteady, fun hu => hkept (hrun.kept hu), fun hidle => ?_, fun hpos => ?_⟩
  · have hother : c.position ≠ g.position := by
      intro hposition
      rcases hidle with hrecorded | hflight
      · rw [(hsame hposition).1] at hrecorded
        cases hrecorded
      · exact hgrounded (hposition ▸ hflight)
    rw [htimes, hrun.idle (hidle.imp id (List.mem_cons_of_mem _))]
    simp [hother]
  · by_cases hposition : c.position = g.position
    · rw [htimes, hrun.idle (.inr (hposition ▸ List.mem_cons_self))]
      exact ⟨by simp [hposition], (hsame hposition).2⟩
    · have hown : [c].countP (·.position == g.position) = 0 := by simp [hposition]
      rw [htimes, hown, Nat.add_zero] at hpos ⊢
      obtain ⟨hone, hrecorded⟩ := hrun.once hpos
      exact ⟨hone, hkept hrecorded⟩

/-- A dispatch that begins the event once begins it once altogether. -/
theorem of_sweep {e : Engine} (hlimit : ¬ e.config.dispatch.maxDepth ≤ w.depth)
    (h : Singly g (Engine.openDispatch w) v) : Singly g w v.leave := by
  have htimes : w.timesBegun v.leave g.position = _ := World.timesBegun_leave h.steady
  refine ⟨.leave hlimit h.steady, h.kept, fun hidle => ?_, fun hpos => ?_⟩
  · rw [htimes]
    exact h.idle hidle
  · rw [htimes] at hpos ⊢
    exact h.once hpos

end Singly

end Narrative
