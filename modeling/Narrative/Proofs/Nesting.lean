import Narrative.Proofs.Index
import Narrative.Proofs.Moves

set_option autoImplicit false

/-!
# How deep dispatches nest

The two guards of an engine go together: between the candidates of a dispatch one more
dispatch is open than events are in flight, and among actions as many (`Clocked.depth`).
No event is in flight twice, and all but the outermost listen for player actions
(`Guarded.raised`), so the depth is bounded by the catalog as well as by the settings.

With a receiver that resumes nothing but the token of a scene, the clock keeps a call for every
dispatch that the limit still allows (`Clocked.step`), and every run ends before its clock does
(`Play.isLive_move`, `nesting_is_guarded`).
-/

namespace Narrative

/-- The dispatches that are open beyond those that execute an event. -/
def Stage.opened : Stage → Nat
  | .acting _ => 0
  | .ruling _ => 1

/-- The nested calls that there is room for. -/
def Stage.clock : Stage → Nat
  | .acting k => k
  | .ruling k => k

/-- The number of events that player actions can raise. -/
def Catalog.raisable (c : Catalog) : Nat := (c.candidates Engine.raisedType).length

/-- The room for nested calls at a stage of a run: the clock has as many calls left as the limit
has dispatches, and one more. -/
structure Clocked (e : Engine) (g : Stage) (w : World) : Prop where
  depth : w.depth.toNat = w.inFlight.length + g.opened
  clock : e.config.dispatch.maxDepth.toNat < g.clock + w.depth.toNat
  limit : w.depth.toNat ≤ e.config.dispatch.maxDepth.toNat

/-- A touch leaves the guards alone. -/
theorem Touch.guards {alive : Option Nat} {wiring : Wiring} {u v : World}
    (h : Touch alive wiring u v) : v.depth = u.depth ∧ v.inFlight = u.inFlight := by
  cases h <;> exact ⟨rfl, rfl⟩

namespace Clocked

variable {e : Engine} {g h : Stage} {u v w : World} {wiring : Wiring} {alive : Option Nat}

/-- The clock has room for every dispatch that may be opened from rest. -/
theorem rest (hdepth : w.depth = 0) (hflight : w.inFlight = []) {k : Nat}
    (hk : e.clock wiring ≤ k) : Clocked e (.acting k) w := by
  have hzero : w.depth.toNat = 0 := by
    rw [hdepth, UInt32.toNat_zero]
  rw [Engine.clock] at hk
  constructor
  · rw [hzero, hflight]
    rfl
  · rw [hzero]
    show _ < k + 0
    omega
  · omega

/-- A change that leaves the guards alone. -/
theorem same (hu : Clocked e g u) (hdepth : v.depth = u.depth) (hflight : v.inFlight = u.inFlight) :
    Clocked e g v := by
  constructor
  · rw [hdepth, hflight]
    exact hu.depth
  · rw [hdepth]
    exact hu.clock
  · rw [hdepth]
    exact hu.limit

/-- A dispatch that is let in leaves room for one call less. -/
theorem opened {k : Nat} (hu : Clocked e (.acting (k + 1)) u)
    (hlimit : ¬ e.config.dispatch.maxDepth ≤ u.depth) :
    Clocked e (.ruling k) (Engine.openDispatch u) := by
  have hnext := toNat_succ_depth hlimit
  have hfree : u.depth.toNat < e.config.dispatch.maxDepth.toNat := by
    rwa [UInt32.le_iff_toNat_le, Nat.not_le] at hlimit
  have hdepth : u.depth.toNat = u.inFlight.length := hu.depth
  have hclock : e.config.dispatch.maxDepth.toNat < k + 1 + u.depth.toNat := hu.clock
  constructor
  · show (u.depth + 1).toNat = u.inFlight.length + 1
    omega
  · show _ < k + (u.depth + 1).toNat
    omega
  · show (u.depth + 1).toNat ≤ _
    omega

/-- A dispatch that ends gives the room back. -/
theorem closed {k : Nat} (hu : Clocked e (.ruling k) u) : Clocked e (.acting (k + 1)) u.leave := by
  have hdepth : u.depth.toNat = u.inFlight.length + 1 := hu.depth
  have hclock : e.config.dispatch.maxDepth.toNat < k + u.depth.toNat := hu.clock
  -- the dispatch that ends has been counted
  have hpos : u.depth ≠ 0 := by
    intro h0
    rw [h0, UInt32.toNat_zero] at hdepth
    omega
  have hback : u.leave.depth.toNat = u.depth.toNat - 1 := by
    show (if u.depth = 0 then 0 else u.depth - 1).toNat = _
    rw [if_neg hpos, UInt32.toNat_sub_of_le, UInt32.toNat_one]
    rw [UInt32.le_iff_toNat_le, UInt32.toNat_one]
    omega
  have hlimit := hu.limit
  constructor
  · rw [hback, hdepth]
    rfl
  · show _ < k + 1 + u.leave.depth.toNat
    omega
  · omega

/-- A candidate takes the place of a dispatch while it is in flight. -/
theorem began {k : Nat} {c : Candidate} (hu : Clocked e (.ruling k) u) :
    Clocked e (.acting k) (Engine.begin c u) :=
  ⟨hu.depth, hu.clock, hu.limit⟩

/-- The innermost event in flight lands. -/
theorem landed {k i : Nat} {rest : List Nat} (hu : Clocked e (.acting k) u)
    (hi : u.inFlight = i :: rest) : Clocked e (.ruling k) (u.land i) := by
  refine ⟨?_, hu.clock, hu.limit⟩
  show u.depth.toNat = (u.inFlight.erase i).length + 1
  rw [hu.depth, hi, List.erase_cons_head]
  rfl

/-- The clock is never used up. -/
theorem clock_ne_zero {k : Nat} (hu : Clocked e (.acting k) u) : k ≠ 0 := by
  -- an empty clock would mean more open dispatches than the limit allows
  have hclock : e.config.dispatch.maxDepth.toNat < k + u.depth.toNat := hu.clock
  have hlimit := hu.limit
  omega

/-- **Every step of an engine leaves as much room as its guards promise** if the receiver is
direct. -/
theorem step (hdirect : wiring.receiver.IsDirect) (hs : Step e alive wiring g u h v)
    (hu : Clocked e g u) : Clocked e h v := by
  cases hs with
  | touched h => exact hu.same h.guards.1 h.guards.2
  | shifted hfree => exact (hfree hdirect).elim
  | stalled => exact absurd rfl hu.clock_ne_zero
  | refused => exact hu.same rfl rfl
  | opened hlimit => exact hu.opened hlimit
  | closed => exact hu.closed
  | began => exact hu.began
  | landed hi => exact hu.landed hi
  | fired _ hi => exact World.fire_of ((hu.landed hi).same rfl rfl) fun hv => hv.same rfl rfl
  | tallied => exact hu.same rfl rfl

end Clocked

/-- What may happen in a guarded run: no call is nested too deep, and a dispatch finds as many
events in flight as there are dispatches open. If the limit allows more than the catalog can
nest, it is let in. -/
def Orderly (e : Engine) : Happening → Prop
  | .dispatched depth inFlight admitted =>
      inFlight.Nodup ∧ inFlight.length = depth.toNat ∧
        (admitted = true → (depth + 1).toNat = depth.toNat + 1) ∧
        (e.catalog.raisable + 2 ≤ e.config.dispatch.maxDepth.toNat → admitted = true)
  | .stalled => False
  | _ => True

/-- What the guards of an engine keep to at a stage of a run. -/
structure Guarded (e : Engine) (g : Stage) (w : World) : Prop where
  depth : w.depth.toNat = w.inFlight.length + g.opened
  clock : e.config.dispatch.maxDepth.toNat < g.clock + w.depth.toNat
  limit : w.depth.toNat ≤ e.config.dispatch.maxDepth.toNat
  nodup : w.inFlight.Nodup
  raised : ∀ i ∈ w.inFlight.dropLast,
    ∃ c ∈ e.catalog.candidates Engine.raisedType, c.position = i
  trace : ∀ m ∈ w.trace, Orderly e m.happening

namespace Guarded

variable {e : Engine} {g h : Stage} {u v w : World} {wiring : Wiring} {alive : Option Nat}

theorem clocked (hu : Guarded e g u) : Clocked e g u := ⟨hu.depth, hu.clock, hu.limit⟩

/-- A change that leaves the guards and the trace alone. -/
theorem same (hu : Guarded e g u) (hdepth : v.depth = u.depth) (hflight : v.inFlight = u.inFlight)
    (htrace : v.trace = u.trace) : Guarded e g v := by
  obtain ⟨hcount, hclock, hlimit⟩ := hu.clocked.same hdepth hflight
  refine ⟨hcount, hclock, hlimit, ?_, ?_, ?_⟩
  · rw [hflight]
    exact hu.nodup
  · rw [hflight]
    exact hu.raised
  · rw [htrace]
    exact hu.trace

theorem note {x : Happening} (hu : Guarded e g u) (hx : Orderly e x) : Guarded e g (u.note x) where
  depth := hu.depth
  clock := hu.clock
  limit := hu.limit
  nodup := hu.nodup
  raised := hu.raised
  trace := List.forall_mem_cons.2 ⟨hx, hu.trace⟩

/-- **The events in flight are bounded by the catalog**: beside the outermost there are only
such as player actions can raise, each of them once. -/
theorem length_le (hu : Guarded e g u) : u.inFlight.length ≤ e.catalog.raisable + 1 := by
  have hnodup : u.inFlight.dropLast.Nodup := hu.nodup.sublist (List.dropLast_sublist _)
  -- these positions are distinct, and all among those of the listeners
  have hsub : u.inFlight.dropLast ⊆
      (e.catalog.candidates Engine.raisedType).map (·.position) := by
    intro i hi
    obtain ⟨c, hc, rfl⟩ := hu.raised i hi
    exact List.mem_map_of_mem hc
  have hle := hnodup.length_le_of_subset hsub
  rw [List.length_dropLast, List.length_map] at hle
  rw [Catalog.raisable]
  omega

theorem touch (h : Touch alive wiring u v) (hu : Guarded e g u) : Guarded e g v := by
  cases h with
  | counted | changed | parked | kept | handed | logged => exact hu.same rfl rfl rfl
  | redeemed | lapsed =>
      have hspent : ∀ token status outcome,
          Guarded e g ((u.spend token status).note (.resumed token outcome)) :=
        fun token status _ => note (u := u.spend token status) (hu.same rfl rfl rfl) trivial
      exact (hspent _ _ _).same rfl rfl rfl
  | called | ignored | returned => exact hu.note trivial

/-- A dispatch that is refused finds the guards in order. -/
theorem refused {k : Nat} (hu : Guarded e (.acting k) u)
    (hlimit : e.config.dispatch.maxDepth ≤ u.depth) :
    Guarded e (.acting k) (Engine.refuseDispatch u) := by
  have hfull := UInt32.le_iff_toNat_le.1 hlimit
  have hdepth : u.depth.toNat = u.inFlight.length := hu.depth
  have hlength := hu.length_le
  have hnoted : Guarded e (.acting k) (u.note (.dispatched u.depth u.inFlight false)) := by
    -- with that much room the depth is below the limit
    refine hu.note ⟨hu.nodup, hdepth.symm, fun h => ?_, fun hroom => ?_⟩
    · cases h
    · omega
  exact hnoted.same rfl rfl rfl

/-- A dispatch that is let in finds the guards in order, and can be counted. -/
theorem opened {k : Nat} (hu : Guarded e (.acting (k + 1)) u)
    (hlimit : ¬ e.config.dispatch.maxDepth ≤ u.depth) :
    Guarded e (.ruling k) (Engine.openDispatch u) := by
  obtain ⟨hcount, hclock, hbelow⟩ := hu.clocked.opened hlimit
  have hdepth : u.depth.toNat = u.inFlight.length := hu.depth
  have hnoted : Guarded e (.acting (k + 1)) (u.note (.dispatched u.depth u.inFlight true)) :=
    hu.note ⟨hu.nodup, hdepth.symm, fun _ => toNat_succ_depth hlimit, fun _ => rfl⟩
  exact ⟨hcount, hclock, hbelow, hu.nodup, hu.raised, hnoted.trace⟩

/-- A dispatch ends. -/
theorem closed {k : Nat} (hu : Guarded e (.ruling k) u) : Guarded e (.acting (k + 1)) u.leave := by
  obtain ⟨hcount, hclock, hlimit⟩ := hu.clocked.closed
  exact ⟨hcount, hclock, hlimit, hu.nodup, hu.raised, hu.trace⟩

/-- A candidate begins that is not in flight. Inside a dispatch it listens for player actions. -/
theorem began {k : Nat} {t : String} {c : Candidate} (hu : Guarded e (.ruling k) u)
    (hc : c ∈ e.catalog.candidates t) (ht : u.inFlight = [] ∨ t = Engine.raisedType)
    (hnew : c.position ∉ u.inFlight) : Guarded e (.acting k) (Engine.begin c u) := by
  have hnoted : Guarded e (.ruling k) (u.note (.began c)) := hu.note trivial
  refine ⟨hu.depth, hu.clock, hu.limit, List.nodup_cons.2 ⟨hnew, hu.nodup⟩, ?_, hnoted.trace⟩
  intro i hi
  have hflight : (Engine.begin c u).inFlight = c.position :: u.inFlight := rfl
  rw [hflight] at hi
  rcases ht with hempty | rfl
  -- the outermost event may listen for anything
  · rw [hempty] at hi
    cases hi
  -- the new event is not the outermost one, and the others are as they were
  · cases hrest : u.inFlight with
    | nil =>
        rw [hrest] at hi
        cases hi
    | cons j rest =>
        rw [hrest, List.dropLast_cons_of_ne_nil (List.cons_ne_nil j rest), ← hrest] at hi
        rcases List.mem_cons.1 hi with rfl | hi
        · exact ⟨c, hc, rfl⟩
        · exact hu.raised i hi

/-- The innermost event in flight lands. -/
theorem landed {k i : Nat} {rest : List Nat} (hu : Guarded e (.acting k) u)
    (hi : u.inFlight = i :: rest) : Guarded e (.ruling k) (u.land i) := by
  obtain ⟨hcount, hclock, hlimit⟩ := hu.clocked.landed hi
  have hrest : (u.land i).inFlight = rest := by
    rw [World.land, hi]
    exact List.erase_cons_head _ _
  refine ⟨hcount, hclock, hlimit, ?_, ?_, hu.trace⟩
  · rw [hrest]
    exact (List.nodup_cons.1 (hi ▸ hu.nodup)).2
  · rw [hrest]
    intro j hj
    refine hu.raised j ?_
    rw [hi]
    cases rest with
    | nil => cases hj
    | cons a rest => exact List.mem_cons_of_mem i hj

/-- **Every step of an engine keeps the guards in order** if the receiver is direct. -/
theorem step (hdirect : wiring.receiver.IsDirect) (hs : Step e alive wiring g u h v)
    (hu : Guarded e g u) : Guarded e h v := by
  cases hs with
  | touched h => exact touch h hu
  | shifted hfree => exact (hfree hdirect).elim
  | stalled => exact absurd rfl hu.clocked.clock_ne_zero
  | refused hlimit => exact hu.refused hlimit
  | opened hlimit => exact hu.opened hlimit
  | closed => exact hu.closed
  | began hc ht hnew _ => exact hu.began hc ht hnew
  | landed hi => exact hu.landed hi
  | fired _ hi =>
      exact World.fire_of ((hu.landed hi).same rfl rfl rfl) fun hv => hv.note trivial
  | tallied => exact hu.same rfl rfl rfl

end Guarded

/-! ## Runs -/

/-- Between moves nothing is open and nothing is in flight. -/
structure AtRest (e : Engine) (w : World) : Prop where
  depth : w.depth = 0
  inFlight : w.inFlight = []
  trace : ∀ m ∈ w.trace, Orderly e m.happening

theorem AtRest.note {e : Engine} {w : World} {x : Happening} (hw : AtRest e w)
    (hx : Orderly e x) : AtRest e (w.note x) :=
  ⟨hw.depth, hw.inFlight, List.forall_mem_cons.2 ⟨hx, hw.trace⟩⟩

/-- From rest the guards are in order. -/
theorem AtRest.guarded {e : Engine} {wiring : Wiring} {w : World} {k : Nat} (hw : AtRest e w)
    (hk : e.clock wiring ≤ k) : Guarded e (.acting k) w := by
  obtain ⟨hcount, hclock, hlimit⟩ := Clocked.rest hw.depth hw.inFlight hk
  refine ⟨hcount, hclock, hlimit, ?_, ?_, hw.trace⟩
  · rw [hw.inFlight]
    exact List.nodup_nil
  · rw [hw.inFlight]
    exact fun _ h => absurd h List.not_mem_nil

theorem AtRest.passage {e : Engine} {alive : Option Nat} {wiring : Wiring} {lax : Prop}
    {u v : World} (hdirect : wiring.receiver.IsDirect) (h : Passage e alive wiring lax u v)
    (hu : AtRest e u) : AtRest e v := by
  cases h with
  | course hk hs hc =>
      -- the course starts from rest, where the clock has room for everything
      have hguarded := hc.induct (I := Guarded e) (Guarded.step hdirect) (hu.guarded hk)
      exact ⟨hs.depth.trans hu.depth, hs.inFlight.trans hu.inFlight, hguarded.trace⟩
  | arranged | unqueued => exact ⟨hu.depth, hu.inFlight, hu.trace⟩
  | called => exact hu.note trivial

/-! ## Runs that are never stalled -/

/-- No call was nested deeper than the interpreter goes. -/
def World.IsLive (w : World) : Prop := ∀ m ∈ w.trace, m.happening ≠ .stalled

theorem World.IsLive.note {w : World} {x : Happening} (hw : w.IsLive) (hx : x ≠ .stalled) :
    (w.note x).IsLive :=
  List.forall_mem_cons.2 ⟨hx, hw⟩

theorem Touch.isLive {alive : Option Nat} {wiring : Wiring} {u v : World}
    (h : Touch alive wiring u v) (hu : u.IsLive) : v.IsLive := by
  cases h with
  | counted | changed | parked | kept | handed | logged => exact hu
  | called | ignored | returned | redeemed | lapsed =>
      exact List.forall_mem_cons.2 ⟨fun hx => Happening.noConfusion hx, hu⟩

/-- An engine whose clock has room for its guards is not stalled by a step. -/
theorem Clocked.isLive {e : Engine} {g h : Stage} {alive : Option Nat} {wiring : Wiring}
    {u v : World} (hs : Step e alive wiring g u h v) (hu : Clocked e g u) (hlive : u.IsLive) :
    v.IsLive := by
  cases hs with
  | touched ht => exact ht.isLive hlive
  | shifted | closed | landed | tallied => exact hlive
  | stalled => exact absurd rfl hu.clock_ne_zero
  | refused | opened | began =>
      exact List.forall_mem_cons.2 ⟨fun hx => Happening.noConfusion hx, hlive⟩
  | fired => exact World.fire_of hlive fun hv => hv.note fun hx => Happening.noConfusion hx

/-- From rest no passage is stalled if the receiver is direct, whatever happened before. -/
theorem Passage.isLive {e : Engine} {alive : Option Nat} {wiring : Wiring} {lax : Prop}
    {u v : World} (hdirect : wiring.receiver.IsDirect) (h : Passage e alive wiring lax u v)
    (hdepth : u.depth = 0) (hflight : u.inFlight = []) (hu : u.IsLive) : v.IsLive := by
  cases h with
  | course hk _ hc =>
      have hstart := Clocked.rest hdepth hflight hk
      have hend := hc.induct (I := fun g w => Clocked e g w ∧ w.IsLive)
        (fun hs hw => ⟨hw.1.step hdirect hs, hw.1.isLive hs hw.2⟩) ⟨hstart, hu⟩
      exact hend.2
  | arranged | unqueued => exact hu
  | called => exact hu.note fun hx => Happening.noConfusion hx

namespace Play

theorem isLive_dropEngine {p : Play} (hlive : p.world.IsLive) : p.dropEngine.world.IsLive := by
  unfold dropEngine
  split
  · exact hlive.note fun hx => Happening.noConfusion hx
  · exact hlive

/-- **No move of the host is stalled** if the receiver is direct. -/
theorem isLive_move {p : Play} (hdirect : p.wiring.receiver.IsDirect) (hdepth : p.world.depth = 0)
    (hflight : p.world.inFlight = []) (hlive : p.world.IsLive) (m : Move) :
    (p.move m).2.world.IsLive := by
  obtain ⟨e, alive, hman⟩ := p.exists_manned
  have hplain : m.IsPlain True → (p.move m).2.world.IsLive := by
    intro hm
    -- a passage leaves the guards at rest, so the next one finds them so
    have hend := move_invariant hman
      (I := fun w => w.IsLive ∧ w.depth = 0 ∧ w.inFlight = [])
      (fun h hu => ⟨h.isLive hdirect hu.2.1 hu.2.2 hu.1, h.guards.1.trans hu.2.1,
        h.guards.2.trans hu.2.2⟩) hm hflight ⟨hlive, hdepth, hflight⟩
    exact hend.1
  cases m with
  | rewire wiring => exact hlive
  | dropEngine =>
      rw [move_dropEngine]
      exact isLive_dropEngine hlive
  | restart catalog config => exact isLive_dropEngine hlive
  | _ => exact hplain trivial

end Play

/-! ## What the guards keep to -/

/-- The guards are what they were. -/
def World.GuardsKept (u v : World) : Prop := v.depth = u.depth ∧ v.inFlight = u.inFlight

/-- **Dispatches nest as deep as the guards allow, and no deeper.** With a direct receiver no
run exhausts its clock: every call returns. Each dispatch, nested or not, finds no event in
flight twice and as many in flight as there are dispatches open; to count it never overflows;
and with a limit two above the number of events that player actions can raise, none is
refused. Each call leaves the guards as it found them, whatever the receiver. -/
theorem nesting_is_guarded {events : List Event} {catalog : Catalog}
    (hcatalog : Catalog.ofEvents events = .ok catalog) (config : EngineConfig) {wiring : Wiring}
    (hdirect : wiring.receiver.IsDirect) (s : SessionState) {moves : List Move}
    (hmoves : ∀ m ∈ moves, m.IsPlain True ∨ m = .dropEngine) :
    let e : Engine := { catalog, config, serial := 0 }
    let w := ((Play.start catalog config wiring s).run moves).world
    (∀ m ∈ w.trace, m.happening ≠ .stalled) ∧
    (∀ m ∈ w.trace, ∀ depth inFlight admitted,
      m.happening = .dispatched depth inFlight admitted →
        inFlight.Nodup ∧ inFlight.length = depth.toNat ∧
        (admitted = true → (depth + 1).toNat = depth.toNat + 1) ∧
        (events.countP (·.trigger.typeKey == "player_action") + 2 ≤
          config.dispatch.maxDepth.toNat → admitted = true)) ∧
    (∀ t payload (u : World), u.GuardsKept (e.handle wiring t payload u).2) ∧
    (∀ k payload (u : World), u.GuardsKept ((e.reach wiring k).raise payload u).2) ∧
    (∀ actions s (u : World), u.GuardsKept (e.execute wiring actions s u).2) ∧
    (∀ k token (u : World), u.GuardsKept ((e.reach wiring k).revive token u)) ∧
    ∀ (p : Play) token (u : World), u.GuardsKept (p.resume token u) := by
  intro e w
  have hrest : AtRest e w := by
    refine Play.run_invariant ?_ ?_ hmoves (.inl rfl) rfl rfl ⟨rfl, rfl, fun m hm => ?_⟩
    · exact fun h => AtRest.passage hdirect h
    · exact fun h _ => h.note trivial
    · cases hm
  have law := Course.law e wiring
  have hkept : ∀ {u v}, Steady u v → u.GuardsKept v := fun h => ⟨h.depth, h.inFlight⟩
  have hraisable : catalog.raisable = events.countP (·.trigger.typeKey == "player_action") := by
    rw [Catalog.raisable, Catalog.candidates_ofEvents hcatalog, Catalog.length_listeners]
    rfl
  refine ⟨fun m hm hstall => ?_, fun m hm depth inFlight admitted hd => ?_, ?_, ?_, ?_, ?_, ?_⟩
  · have horderly := hrest.trace m hm
    rwa [hstall] at horderly
  · have horderly := hrest.trace m hm
    rw [hd] at horderly
    rw [← hraisable]
    exact horderly
  · exact fun t payload u => hkept ((Law.nothing e wiring u.inFlight).handle rfl t payload).steady
  · exact fun k payload u => hkept ((law.reach_lawful k).raise payload u).steady
  · exact fun actions s u => hkept (law.execute actions s u).steady
  · exact fun k token u => hkept ((law.reach_lawful k).revive.steady token u)
  · intro p token u
    obtain ⟨_, _, hman⟩ := p.exists_manned
    exact hkept (Play.steady_resume hman token u)

/-- Two events that raise one another without end. -/
def quarrel : List Event :=
  let raises (action : String) : List Action := [.playerAction (some action) none]
  [{ id := "blame", trigger := .ofAuthored { type := "player_action", action := some "shout" },
     conditions := [], actions := raises "sulk", repeatable := true },
   { id := "retort", trigger := .ofAuthored { type := "player_action", action := some "sulk" },
     conditions := [], actions := raises "shout", repeatable := true }]

/-- The second event cannot raise the first again: with a limit of four nothing is refused. -/
theorem quarrel_is_guarded : ∃ catalog, Catalog.ofEvents quarrel = .ok catalog ∧
    (Receiver.session .finishAtOnce).IsDirect ∧
    let config : EngineConfig := { dispatch := { maxDepth := 4 } }
    let w := ((Play.start catalog config ⟨.session .finishAtOnce, true⟩ {}).run
      [.occur (.playerAction "shout" none)]).world
    w.counters.dispatches = 3 ∧ ∀ m ∈ w.trace, m.happening ≠ .stalled := by
  refine ⟨_, rfl, Receiver.isDirect_session .finishAtOnce, by decide, ?_⟩
  have hmoves : ∀ m ∈ [Move.occur (.playerAction "shout" none)],
      m.IsPlain True ∨ m = .dropEngine := by
    simp [Move.IsPlain]
  have hcatalog : Catalog.ofEvents quarrel = .ok _ := rfl
  exact (nesting_is_guarded hcatalog _ (Receiver.isDirect_session .finishAtOnce) {} hmoves).1

end Narrative
