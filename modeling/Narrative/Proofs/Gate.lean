import Narrative.Proofs.Milestones
import Narrative.Proofs.Repeats

set_option autoImplicit false

/-!
# Events behind a milestone

A writer lets an event happen once by a gate: the event waits for a milestone not to be set, and
sets it. This works even for events that may be repeated, but it works dispatch by dispatch. What
a dispatch knows of milestones is its snapshot. Once the milestone is set, no dispatch that starts
later begins the event, nested or not (`Shut`). But a dispatch that is open at that moment goes on
with its snapshot and may still begin the event after a dispatch inside it has, so that at worst
each of the dispatches that are open when the milestone is set begins it once (`Gated`). An event
that must not fire again is begun once even then, since the record is read again before its turn
(`Singly`). The main statement is `gate_closes_behind_event`, and `solo_is_sung_twice` shows that the
bound is reached.
-/

namespace Narrative

/-- An event that waits for a milestone not to be set, and sets it at the top level of its
actions. -/
structure Event.IsGate (m : String) (e : Event) : Prop where
  waits : .milestoneNotSet m ∈ e.conditions
  closes : .deed (.setMilestone (some m)) ∈ e.actions

/-! ## Once the milestone is set -/

/-- What a run is like that begins nothing that waits for a milestone not to be set, once it is
set. -/
structure Shut (m : String) (u v : World) : Prop where
  trace : u.trace <:+ v.trace
  kept : u.HasMilestone m → v.HasMilestone m
  shut : u.HasMilestone m → ∀ c ∈ u.begun v, .milestoneNotSet m ∉ c.event.conditions

namespace Shut

variable {m : String} {u v w : World}

/-- Nothing is begun. -/
theorem quiet (htrace : u.trace <:+ v.trace) (hkept : u.HasMilestone m → v.HasMilestone m)
    (hbegun : u.begun v = []) : Shut m u v := by
  refine ⟨htrace, hkept, fun _ c hc => ?_⟩
  rw [hbegun] at hc
  cases hc

theorem refl (w : World) : Shut m w w := quiet List.suffix_rfl id (World.begun_of_same rfl)

theorem trans (h : Shut m u v) (h' : Shut m v w) : Shut m u w := by
  refine ⟨h.trace.trans h'.trace, fun hu => h'.kept (h.kept hu), fun hu c hc => ?_⟩
  rw [World.begun_trans h.trace h'.trace, List.mem_append] at hc
  rcases hc with hc | hc
  · exact h'.shut (h.kept hu) c hc
  · exact h.shut hu c hc

end Shut

/-! ## While it is not -/

/-- How many of a number of open dispatches can have an event among their candidates: each of them if
it listens for player actions, and else only the outermost. -/
def Event.rounds (event : Event) (depth : Nat) : Nat :=
  if event.trigger.typeKey = Engine.raisedType then depth else min depth 1

namespace Event

variable {event : Event}

theorem rounds_mono {d d' : Nat} (h : d ≤ d') : event.rounds d ≤ event.rounds d' := by
  unfold rounds
  split <;> omega

theorem rounds_le (d : Nat) : event.rounds d ≤ d := by
  unfold rounds
  split <;> omega

theorem rounds_le_one (h : event.trigger.typeKey ≠ Engine.raisedType) (d : Nat) :
    event.rounds d ≤ 1 := by
  rw [rounds, if_neg h]
  exact Nat.min_le_right d 1

/-- A dispatch that has the event among its candidates is one more. -/
theorem rounds_succ {t : String} (hkey : event.trigger.typeKey = Text.typeKey t) {d : Nat}
    (ht : d = 0 ∨ t = Engine.raisedType) : event.rounds d + 1 ≤ event.rounds (d + 1) := by
  unfold rounds
  split
  · exact Nat.le_refl (d + 1)
  · next hother =>
      rcases ht with rfl | rfl
      · exact Nat.le_refl 1
      -- only events of the raised type are candidates inside a dispatch
      · have hraised : Text.typeKey Engine.raisedType = Engine.raisedType := by decide
        exact absurd (hkey.trans hraised) hother

end Event

/-- What a run of actions is like with a gate. The event is not begun if the milestone is set or the
event is in flight. Else it was begun at most once for each of the dispatches that were opened
since, may have the event among their candidates, and were open when the milestone was set. -/
structure Gated (m : String) (g : Candidate) (u v : World) : Prop extends Lasting m u v where
  steady : Steady u v
  shut : u.HasMilestone m → ∀ c ∈ u.begun v, .milestoneNotSet m ∉ c.event.conditions
  idle : u.HasMilestone m ∨ g.position ∈ u.inFlight → u.timesBegun v g.position = 0
  bound : u.timesBegun v g.position ≠ 0 → ∃ x, u.firstSet? v m = some x ∧
    g.event.rounds u.depth.toNat + u.timesBegun v g.position ≤ g.event.rounds x.depth.toNat

/-- What a dispatch with a snapshot is like while it goes through some candidates. The event is
begun once if it is among them, and the other times by dispatches inside; these do not begin it
any more once the milestone is set. -/
structure GatedSweep (m : String) (g : Candidate) (s : SessionState) (cs : List Candidate)
    (u v : World) : Prop extends Lasting m u v where
  steady : Steady u v
  shut : s.milestones.contains m = true → ∀ c ∈ u.begun v, .milestoneNotSet m ∉ c.event.conditions
  idle : s.milestones.contains m = true ∨ g.position ∈ u.inFlight →
    u.timesBegun v g.position = 0
  own : u.HasMilestone m → u.timesBegun v g.position ≤ cs.countP (·.position == g.position)
  bound : u.timesBegun v g.position ≠ 0 → ∃ x, u.firstSet? v m = some x ∧
    g.event.rounds u.depth.toNat + u.timesBegun v g.position ≤
      g.event.rounds x.depth.toNat + cs.countP (·.position == g.position)

namespace Gated

variable {m : String} {g : Candidate} {u v w : World}

/-- Nothing is begun. -/
theorem quiet (hsteady : Steady u v) (hlasting : Lasting m u v) (hbegun : u.begun v = []) :
    Gated m g u v := by
  have hnone : u.timesBegun v g.position = 0 := World.timesBegun_of_begun hbegun
  refine ⟨hlasting, hsteady, fun _ c hc => ?_, fun _ => hnone, fun h => absurd hnone h⟩
  rw [hbegun] at hc
  cases hc

/-- Nothing is noted. -/
theorem same (hsteady : Steady u v) (hkept : u.HasMilestone m → v.HasMilestone m)
    (htrace : v.trace = u.trace) : Gated m g u v :=
  quiet hsteady (.plain hkept (.of_same htrace)) (World.begun_of_same htrace)

/-- Something is noted. -/
theorem note (w : World) {x : Happening} (hx : x.candidate? = none) : Gated m g w (w.note x) :=
  quiet (.note w x) (.plain id (.of_note rfl)) (World.begun_note w hx)

theorem toShut (h : Gated m g u v) : Shut m u v := ⟨h.steady.trace, h.kept, h.shut⟩

/-- If the event was begun the milestone is set. -/
theorem hasMilestone (h : Gated m g u v) (hbegun : u.timesBegun v g.position ≠ 0) :
    v.HasMilestone m := by
  obtain ⟨x, hx, -⟩ := h.bound hbegun
  exact h.toLasting.hasMilestone hx

theorem trans (h : Gated m g u v) (h' : Gated m g v w) : Gated m g u w := by
  have hdepth := h.steady.depth
  have htimes : u.timesBegun w g.position = _ :=
    World.timesBegun_trans h.steady.trace h'.steady.trace
  have hfirst : u.firstSet? w m = _ := World.firstSet?_trans h.steady.trace h'.steady.trace
  have hlasting : Lasting m u w :=
    h.toLasting.trans h'.toLasting h.steady.trace h'.steady.trace (Nat.le_of_eq (hdepth ▸ rfl))
  refine ⟨hlasting, h.steady.trans h'.steady, (h.toShut.trans h'.toShut).shut, fun hidle => ?_,
    fun hbegun => ?_⟩
  · rw [htimes, h.idle hidle, h'.idle]
    exact hidle.imp h.kept fun hflight => h.steady.inFlight ▸ hflight
  · by_cases hnone : u.timesBegun v g.position = 0
    · rw [hnone, Nat.add_zero] at htimes
      rw [htimes] at hbegun ⊢
      have hunset : ¬ v.HasMilestone m := fun hv => hbegun (h'.idle (.inl hv))
      rw [hfirst, h.toLasting.firstSet?_eq_none hunset, Option.none_or, ← hdepth]
      exact h'.bound hbegun
    -- the milestone was set in the first run, so the event was not begun in the second
    · obtain ⟨x, hx, hbound⟩ := h.bound hnone
      rw [h'.idle (.inl (h.hasMilestone hnone)), Nat.zero_add] at htimes
      rw [htimes, hfirst, hx, Option.some_or]
      exact ⟨x, rfl, hbound⟩

/-- Calls and scenes take no milestone back, and begin nothing. -/
theorem tracks {wiring : Wiring} {screen : Screen} (hsession : wiring.receiver = .session screen)
    (alive : Option Nat) : Tracks alive wiring (Gated m g) where
  refl w := same (.refl w) id rfl
  trans := trans
  touch {u v} h := by
    refine quiet h.steady (.plain ?_ h.plain) h.begun
    cases h with
    | changed _ hf =>
        rw [hsession] at hf
        exact Receiver.keepsMilestone_session m hf u.game
    | _ => exact id

end Gated

namespace GatedSweep

variable {m : String} {g : Candidate} {s : SessionState} {u v w : World}
variable {cs cs' : List Candidate}

/-- Nothing is noted. -/
theorem same (hsteady : Steady u v) (hkept : u.HasMilestone m → v.HasMilestone m)
    (htrace : v.trace = u.trace) (cs : List Candidate) : GatedSweep m g s cs u v := by
  have hnone : u.timesBegun v g.position = 0 :=
    World.timesBegun_of_begun (World.begun_of_same htrace)
  refine ⟨.plain hkept (.of_same htrace), hsteady, fun _ c hc => ?_, fun _ => hnone,
    fun _ => hnone ▸ Nat.zero_le _, fun h => absurd hnone h⟩
  rw [World.begun_of_same htrace] at hc
  cases hc

theorem trans (h : GatedSweep m g s cs u v) (h' : GatedSweep m g s cs' v w) :
    GatedSweep m g s (cs ++ cs') u w := by
  have hdepth := h.steady.depth
  have hbegun := World.begun_trans h.steady.trace h'.steady.trace
  have htimes : u.timesBegun w g.position = _ :=
    World.timesBegun_trans h.steady.trace h'.steady.trace
  have hfirst : u.firstSet? w m = _ := World.firstSet?_trans h.steady.trace h'.steady.trace
  have hlasting : Lasting m u w :=
    h.toLasting.trans h'.toLasting h.steady.trace h'.steady.trace (Nat.le_of_eq (hdepth ▸ rfl))
  refine ⟨hlasting, h.steady.trans h'.steady, fun hs c hc => ?_, fun hidle => ?_, fun hu => ?_,
    fun hpos => ?_⟩
  · rw [hbegun, List.mem_append] at hc
    exact hc.elim (h'.shut hs c) (h.shut hs c)
  · rw [htimes, h.idle hidle, h'.idle]
    exact hidle.imp id fun hflight => h.steady.inFlight ▸ hflight
  · have hearlier := h.own hu
    have hlater := h'.own (h.kept hu)
    rw [htimes, List.countP_append]
    omega
  rw [htimes, List.countP_append, hfirst]
  cases hset : u.firstSet? v m with
  | some x =>
      -- the dispatches inside the later candidates find the milestone set
      have hlater := h'.own (h.toLasting.hasMilestone hset)
      refine ⟨x, Option.some_or, ?_⟩
      by_cases hnone : u.timesBegun v g.position = 0
      · have hdeep := g.event.rounds_mono (h.deep x (World.of_firstSet? hset).1)
        omega
      · obtain ⟨x', hx', hbound⟩ := h.bound hnone
        obtain rfl := Option.some.inj (hset.symm.trans hx')
        omega
  | none =>
      have hnone : u.timesBegun v g.position = 0 := by
        by_contra hbegun
        obtain ⟨x, hx, -⟩ := h.bound hbegun
        rw [hset] at hx
        cases hx
      obtain ⟨x, hx, hbound⟩ := h'.bound (by omega)
      rw [hdepth] at hbound
      exact ⟨x, hx, by omega⟩

/-- A candidate is executed, and nothing is begun once it has landed. If it is the gate, it cannot
be begun by the dispatches inside, as it is in flight, and it sets the milestone. -/
theorem of_flight {c : Candidate} {x : World} (hrun : Gated m g (Engine.begin c u) x)
    (hend : Steady (x.land c.position) v) (hlasting : Lasting m (x.land c.position) v)
    (hquiet : (x.land c.position).begun v = [])
    (hs : s.milestones.contains m = true → u.HasMilestone m) (hgrounded : c.position ∉ u.inFlight)
    (hwaits : .milestoneNotSet m ∈ c.event.conditions → s.milestones.contains m = false)
    (hgate : c.position = g.position → .milestoneNotSet m ∈ c.event.conditions ∧
      ∃ y ∈ (Engine.begin c u).since x, y.HasMilestone m) :
    GatedSweep m g s [c] u v := by
  have hsteady : Steady u v := (Steady.land hrun.steady).trans hend
  have hflown : Lasting m u v := .flight hrun.steady hend hrun.toLasting hlasting
  have htimes : u.timesBegun v g.position = _ := World.timesBegun_flight hrun.steady hend hquiet
  have hbegun := Engine.begun_flight hrun.steady hend hquiet
  refine ⟨hflown, hsteady, fun hset y hy hwait => ?_, fun hidle => ?_, fun hu => ?_,
    fun hpos => ?_⟩
  · rw [hbegun, List.mem_append, List.mem_singleton] at hy
    rcases hy with hy | rfl
    · exact hrun.shut (hs hset) y hy hwait
    · rw [hwaits hwait] at hset
      cases hset
  · have hother : c.position ≠ g.position := by
      intro hposition
      rcases hidle with hset | hflight
      · rw [hwaits (hgate hposition).1] at hset
        cases hset
      · exact hgrounded (hposition ▸ hflight)
    rw [htimes, hrun.idle (hidle.imp hs (List.mem_cons_of_mem _))]
    simp [hother]
  · rw [htimes, hrun.idle (.inl hu)]
    exact Nat.le_of_eq (Nat.zero_add _)
  · by_cases hposition : c.position = g.position
    · obtain ⟨y, hy, hset⟩ := (hgate hposition).2
      have hmem : y ∈ u.since v := World.mem_since_flight hrun.steady hend hy
      obtain ⟨z, hz⟩ := World.exists_firstSet? hmem hset
      have hdeep := g.event.rounds_mono (hflown.deep z (World.of_firstSet? hz).1)
      rw [htimes, hrun.idle (.inr (hposition ▸ List.mem_cons_self))]
      exact ⟨z, hz, by omega⟩
    · have hown : [c].countP (·.position == g.position) = 0 := by simp [hposition]
      rw [hown, Nat.add_zero] at htimes
      rw [htimes] at hpos ⊢
      obtain ⟨z, hz, hbound⟩ := hrun.bound hpos
      have hunset : ¬ (Engine.begin c u).HasMilestone m := fun hu => hpos (hrun.idle (.inl hu))
      exact ⟨z, World.firstSet?_flight hrun.steady hend hunset hz,
        Nat.le_trans hbound (Nat.le_add_right _ _)⟩

end GatedSweep

/-! ## A dispatch -/

/-- The catalog of an engine was built from events. -/
def Engine.IsBuilt (e : Engine) : Prop := ∃ events, Catalog.ofEvents events = .ok e.catalog

/-- The catalog of an engine was built, and a candidate is the only one at its position and is a gate.
If nothing is a candidate at this position, this says nothing of it. -/
structure Engine.Watches (e : Engine) (m : String) (g : Candidate) : Prop where
  built : e.IsBuilt
  gate : ∀ {t : String} {c : Candidate}, c ∈ e.catalog.candidates t → c.position = g.position →
    c = g ∧ g.event.IsGate m

section Dispatch

variable {e : Engine} {m : String} {g : Candidate} {k : Nat} {wiring : Wiring} {screen : Screen}

/-- Nothing that is eligible waits for a milestone that is set in the snapshot. -/
theorem Engine.Eligible.not_set {s : SessionState} {inFlight : List Nat} {payload : Payload}
    {c : Candidate} (h : e.Eligible s inFlight payload c)
    (hc : .milestoneNotSet m ∈ c.event.conditions) : s.milestones.contains m = false := by
  have hholds : (!s.milestones.contains m) = true := h.conditions _ hc
  rwa [Bool.not_eq_true'] at hholds

/-- No event stands twice among the candidates of a dispatch. -/
theorem Engine.IsBuilt.countP_le_one (hbuilt : e.IsBuilt) (t : String) (position : Nat) :
    (e.catalog.candidates t).countP (·.position == position) ≤ 1 := by
  obtain ⟨events, hcatalog⟩ := hbuilt
  have hsorted : (e.catalog.candidates t).Pairwise (·.position < ·.position) := by
    rw [Catalog.candidates_ofEvents hcatalog]
    exact Catalog.pairwise_listeners _ _ _
  have hnodup : ((e.catalog.candidates t).map (·.position)).Nodup :=
    List.pairwise_map.2 (hsorted.imp fun h => Nat.ne_of_lt h)
  have hcount := List.nodup_iff_count.1 hnodup position
  rwa [List.count, List.countP_map] at hcount

/-- A candidate listens to the type of the dispatch. -/
theorem Engine.IsBuilt.typeKey_eq (hbuilt : e.IsBuilt) {t : String} {c : Candidate}
    (hc : c ∈ e.catalog.candidates t) : c.event.trigger.typeKey = Text.typeKey t := by
  obtain ⟨events, hcatalog⟩ := hbuilt
  rw [Catalog.candidates_ofEvents hcatalog] at hc
  exact (Catalog.mem_listeners_iff.1 hc).2

/-- A dispatch that is let in is one more of those that may begin the gate, if it does so itself. -/
theorem Engine.Watches.rounds_add (watches : e.Watches m g) {t : String} {w : World}
    (ht : w.depth = 0 ∨ t = Engine.raisedType) :
    g.event.rounds w.depth.toNat + (e.catalog.candidates t).countP (·.position == g.position) ≤
      g.event.rounds (w.depth.toNat + 1) := by
  have hone := watches.built.countP_le_one t g.position
  rcases Nat.eq_zero_or_pos ((e.catalog.candidates t).countP (·.position == g.position)) with
    hnone | hpos
  · rw [hnone]
    exact g.event.rounds_mono (Nat.le_succ _)
  · obtain ⟨c, hc, hposition⟩ := List.countP_pos_iff.1 hpos
    obtain ⟨rfl, -⟩ := watches.gate hc (beq_iff_eq.1 hposition)
    have hround := Event.rounds_succ (watches.built.typeKey_eq hc)
      (ht.imp (fun h => congrArg UInt32.toNat h) id)
    omega

/-- A dispatch whose candidates are gone through is closed. It begins the event once itself at
most, and leaves the other rounds to the dispatches inside. -/
theorem Gated.of_sweep (watches : e.Watches m g) {t : String} {w v : World}
    (ht : w.depth = 0 ∨ t = Engine.raisedType) (hlimit : ¬ e.config.dispatch.maxDepth ≤ w.depth)
    (h : GatedSweep m g w.game.state (e.catalog.candidates t) (Engine.openDispatch w) v) :
    Gated m g w v.leave := by
  have hsteady : Steady w v.leave := .leave hlimit h.steady
  have htimes : w.timesBegun v.leave g.position = _ := World.timesBegun_leave h.steady
  -- below the limit the depth can be counted up without overflow
  have hdepth : (Engine.openDispatch w).depth.toNat = w.depth.toNat + 1 := toNat_succ_depth hlimit
  have hopened : Lasting m w (Engine.openDispatch w) := .plain id (.of_note rfl)
  have hclosed : Lasting m w v := hopened.trans h.toLasting (List.suffix_cons _ _) h.steady.trace
    (hdepth ▸ Nat.le_succ _)
  refine ⟨⟨hclosed.kept, hclosed.seen, hclosed.deep⟩, hsteady, fun hw c hc => ?_, fun hidle => ?_,
    fun hpos => ?_⟩
  · exact h.shut hw c (Engine.begun_leave h.steady ▸ hc)
  · rw [htimes]
    exact h.idle hidle
  · rw [htimes] at hpos ⊢
    obtain ⟨x, hx, hbound⟩ := h.bound hpos
    have hunset : ¬ (Engine.openDispatch w).HasMilestone m := fun hw => hpos (h.idle (.inl hw))
    have hfirst : w.firstSet? v.leave m = some x := by
      show w.firstSet? v m = some x
      rw [World.firstSet?_trans (List.suffix_cons _ _) h.steady.trace,
        hopened.firstSet?_eq_none hunset, Option.none_or, hx]
    have hround := watches.rounds_add (w := w) ht
    rw [hdepth] at hbound
    exact ⟨x, hfirst, by omega⟩

section Runs

variable (hsession : wiring.receiver = .session screen)

include hsession

/-- The run of a gate's own actions takes effect, and sets the milestone on the way. -/
theorem Action.runAll_closes {actions : List Action}
    (h : .deed (.setMilestone (some m)) ∈ actions) (s : SessionState) (w : World) :
    (Action.runAll e wiring (e.reach wiring k) actions s w).1 = true ∧
      ∃ x ∈ w.since (Action.runAll e wiring (e.reach wiring k) actions s w).2,
        x.HasMilestone m := by
  have law := Law.nothing e wiring []
  have hreach := law.reach_lawful k
  induction actions generalizing w with
  | nil => cases h
  | cons a rest ih =>
      have hfirst := (law.run hreach a s w).steady.trace
      have hrest := (law.runAll hreach rest s
        (Action.run e wiring (e.reach wiring k) a s w).2).steady.trace
      rw [Action.runAll]
      simp only
      rw [World.since_trans hfirst hrest]
      rcases List.mem_cons.1 h with rfl | h
      · obtain ⟨htook, x, hx, hset⟩ := World.performAll_setMilestone hsession
          (e.reach wiring k).revive m w.started
        rw [Action.run, htook]
        exact ⟨rfl, x, List.mem_append_right _ hx, hset⟩
      · obtain ⟨htook, x, hx, hset⟩ := ih h (Action.run e wiring (e.reach wiring k) a s w).2
        rw [htook, Bool.or_true]
        exact ⟨rfl, x, List.mem_append_left _ hx, hset⟩

/-- A turn in which a candidate is passed over or executed. -/
theorem Engine.Turned.gated (watches : e.Watches m g)
    (hreach : (e.reach wiring k).Lawful wiring (fun _ u _ v => Gated m g u v) k)
    {t : String} {s : SessionState} {payload : Payload} {c : Candidate}
    (hc : c ∈ e.catalog.candidates t) {u v : World}
    (h : e.Turned wiring (e.reach wiring k) s payload c u v)
    (hs : s.milestones.contains m = true → u.HasMilestone m) : GatedSweep m g s [c] u v := by
  cases h with
  | passed hsteady hgame htrace =>
      refine .same hsteady ?_ htrace [c]
      rw [World.HasMilestone, World.HasMilestone, hgame]
      exact id
  | @executed x took heligible _ hrun =>
      have acts := Tracks.acts (P := fun _ => Gated m g) (e := e) fun _ =>
        Gated.tracks hsession _
      have hx : _ = x := congrArg Prod.snd hrun
      have hrunning : Gated m g (begin c (e.checked s payload c u)) x :=
        hx ▸ (acts.runAll hreach c.event.actions s (begin c (e.checked s payload c u))).law
      refine (GatedSweep.same (e.steady_checked s payload c u) id rfl []).trans ?_
      have hsets : c.position = g.position → .milestoneNotSet m ∈ c.event.conditions ∧
          ∃ y ∈ (begin c (e.checked s payload c u)).since x, y.HasMilestone m := by
        intro hposition
        obtain ⟨rfl, hgate⟩ := watches.gate hc hposition
        exact ⟨hgate.waits, hx ▸ (Action.runAll_closes hsession hgate.closes s _).2⟩
      have hlanded : ∀ {v}, Steady (x.land c.position) v → Lasting m (x.land c.position) v →
          (x.land c.position).begun v = [] → GatedSweep m g s [c] (e.checked s payload c u) v :=
        fun hend hlasting hquiet => .of_flight hrunning hend hlasting hquiet hs
          heligible.grounded heligible.not_set hsets
      split
      · exact hlanded (.announce hreach.revive.steady c.event _) (.announce hsession _ c.event _)
          (World.begun_announce hsession _ c.event _)
      · exact hlanded (.refl _) (.plain id (.of_same rfl)) (World.begun_of_same rfl)

/-- A turn of an event that must not fire again. If it is executed it takes effect, and is recorded. -/
theorem Engine.Turned.singly (watches : e.Watches m g) (honce : g.event.isOnce = true)
    (hreach : (e.reach wiring k).Lawful wiring (fun _ u _ v => Singly g u v) k)
    {t : String} {s : SessionState} {payload : Payload} {c : Candidate}
    (hc : c ∈ e.catalog.candidates t) {u v : World}
    (h : e.Turned wiring (e.reach wiring k) s payload c u v) : Singly g u v := by
  cases h with
  | passed hsteady hgame htrace =>
      refine .quiet hsteady (fun hu => ?_) (World.begun_of_same htrace)
      rwa [hgame]
  | @executed x took heligible hlive hrun =>
      have acts := Tracks.acts (P := fun _ => Singly g) (e := e) fun _ => Singly.tracks hsession _
      obtain ⟨rfl, rfl⟩ := Prod.mk.inj hrun
      have hrunning := (acts.runAll hreach c.event.actions s (begin c (e.checked s payload c u))).law
      refine (Singly.quiet (e.steady_checked s payload c u) id (World.begun_of_same rfl)).trans ?_
      have hrecord := World.completedEvents_announce hsession (e.reach wiring k).revive c.event
      split
      · refine .of_flight hrunning (.announce hreach.revive.steady c.event _)
          (World.begun_announce hsession _ c.event _) (fun hx => ?_) heligible.grounded
          fun hposition => ?_
        · rw [Event.isCompleted, hrecord]
          exact g.event.keepsCompleted_record c.event _ hx
        · obtain ⟨rfl, -⟩ := watches.gate hc hposition
          refine ⟨hlive, ?_⟩
          rw [Event.isCompleted, hrecord]
          exact Event.isCompleted_record honce _
      · next hnone =>
          refine .of_flight hrunning (.refl _) (World.begun_of_same rfl) id heligible.grounded
            fun hposition => ?_
          obtain ⟨rfl, hgate⟩ := watches.gate hc hposition
          exact absurd (Action.runAll_closes hsession hgate.closes s _).1 hnone

/-- **Over a session every run of an engine is gated.** -/
theorem conduct_gated (watches : e.Watches m g) : Conduct e wiring (Gated m g) where
  toTracks := Gated.tracks hsession _
  stalled w := .note w rfl
  dispatch {k} hreach t w ht payload := by
    rw [Engine.dispatch]
    split
    · exact .quiet (.refuseDispatch w) (.plain id (.of_note rfl)) w.begun_refuseDispatch
    · next hlimit =>
        refine Gated.of_sweep watches ht hlimit ?_
        refine Engine.sweep_induct (Q := fun cs u v =>
          (w.game.state.milestones.contains m = true → u.HasMilestone m) →
            GatedSweep m g w.game.state cs u v)
          (fun _ hc => hc) (fun _ => rfl) (fun w _ => ?_) (fun hc hturn hrest hs => ?_) id
        · exact .same (.refl w) id rfl []
        · have hfirst := hturn.gated hsession watches hreach hc hs
          exact hfirst.trans (hrest fun hset => hfirst.kept (hs hset))

/-- **An event that must not fire again is begun once.** -/
theorem conduct_singly (watches : e.Watches m g) (honce : g.event.isOnce = true) :
    Conduct e wiring (Singly g) where
  toTracks := Singly.tracks hsession _
  stalled w := .quiet (.note w _) id (World.begun_note w rfl)
  dispatch {k} hreach t w ht payload := by
    rw [Engine.dispatch]
    split
    · exact .quiet (.refuseDispatch w) id w.begun_refuseDispatch
    · next hlimit =>
        refine Singly.of_sweep hlimit ?_
        refine Engine.sweep_induct (Q := fun _ u v => Singly g u v) (fun _ hc => hc) (fun _ => rfl)
          Singly.refl fun hc hturn hrest => ?_
        exact (hturn.singly hsession watches honce hreach hc).trans hrest

end Runs

end Dispatch

/-! ## Runs of a host -/

/-- The calls of an engine are received by a session, on whatever screen. -/
def Wiring.IsSession (wiring : Wiring) : Prop := ∃ screen, wiring.receiver = .session screen

section Host

variable {m : String} {e : Engine} {g : Candidate}

/-- A gate in a catalog that was built is watched. -/
theorem Engine.IsBuilt.watches (hbuilt : e.IsBuilt) {t : String}
    (hg : g ∈ e.catalog.candidates t) (hgate : g.event.IsGate m) : e.Watches m g := by
  refine ⟨hbuilt, fun {t' c} hc hposition => ⟨?_, hgate⟩⟩
  obtain ⟨events, hcatalog⟩ := hbuilt
  have hget := Catalog.getElem?_of_mem_candidates hcatalog hc
  rw [hposition, Catalog.getElem?_of_mem_candidates hcatalog hg] at hget
  have hevent : g.event = c.event := Option.some.inj hget
  obtain ⟨position, event⟩ := c
  simp only at hposition hevent
  rw [hposition, ← hevent]

/-- There is no event behind the last one. -/
theorem Engine.IsBuilt.watches_none (hbuilt : e.IsBuilt) (m : String) (event : Event) :
    e.Watches m ⟨e.catalog.events.length, event⟩ := by
  refine ⟨hbuilt, fun {t c} hc hposition => ?_⟩
  obtain ⟨events, hcatalog⟩ := hbuilt
  have hget := Catalog.getElem?_of_mem_candidates hcatalog hc
  rw [Catalog.events_ofEvents hcatalog] at hposition
  have hlt := (List.getElem?_eq_some_iff.1 hget).1
  exact absurd hposition (Nat.ne_of_lt hlt)

/-- What the host changes by itself takes no milestone back, unless it puts another state in the
place of the session's. -/
theorem Move.keepsMilestone_change {mv : Move}
    (hstate : ∀ s, mv = .setState s → s.milestones.contains m = true) {f : Game → Game}
    (hf : mv.change? = some f) : KeepsMilestone m f := by
  unfold Move.change? at hf
  split at hf
  · obtain rfl := Option.some.inj hf
    exact fun _ => id
  · obtain rfl := Option.some.inj hf
    exact fun _ => id
  · obtain rfl := Option.some.inj hf
    exact fun _ _ => hstate _ rfl
  · obtain rfl := Option.some.inj hf
    exact fun _ => id
  · cases hf

/-- It takes nothing from the record either. -/
theorem Move.keepsCompleted_change {mv : Move} (hstate : ∀ s, mv ≠ .setState s) (event : Event)
    {f : Game → Game} (hf : mv.change? = some f) : KeepsCompleted event f := by
  unfold Move.change? at hf
  split at hf
  · obtain rfl := Option.some.inj hf
    exact fun _ => id
  · obtain rfl := Option.some.inj hf
    exact fun _ => id
  · exact absurd rfl (hstate _)
  · obtain rfl := Option.some.inj hf
    intro g hg
    obtain ⟨honce, hrecorded⟩ := Bool.and_eq_true_iff.1 hg
    exact Bool.and_eq_true_iff.2 ⟨honce, by simp [Game.markEvent, Game.updateState, hrecorded]⟩
  · cases hf

/-- Between moves a session is gated as well. -/
theorem Play.governed_gated {p : Play} (hsession : p.wiring.IsSession)
    (watches : ∀ e, p.engine = some e → e.Watches m g) :
    p.Governed (KeepsMilestone m) (Gated m g) where
  conduct e he := hsession.elim fun _ h => conduct_gated h (watches e he)
  vacant _ := hsession.elim fun _ h => Gated.tracks h none
  arranged w _ hf := .same (.changeGame w _) (hf w.game) rfl
  seen := Game.keepsMilestone_seeTutorial m
  unqueued _ _ := .same ⟨rfl, rfl, fun h => ⟨_, h, .refl _⟩, List.suffix_rfl⟩ id rfl
  announced w _ := .note w rfl
  lost w _ := .note w rfl
  renewed hdepth hflight :=
    .same ⟨hdepth.symm, hflight.symm, fun h => ⟨_, h, .refl _⟩, List.suffix_rfl⟩ id rfl

/-- Between moves an event that must not fire again is not begun either. -/
theorem Play.governed_singly {p : Play} (hsession : p.wiring.IsSession)
    (honce : g.event.isOnce = true) (watches : ∀ e, p.engine = some e → e.Watches m g) :
    p.Governed (KeepsCompleted g.event) (Singly g) where
  conduct e he := hsession.elim fun _ h => conduct_singly h (watches e he) honce
  vacant _ := hsession.elim fun _ h => Singly.tracks h none
  arranged w _ hf := .quiet (.changeGame w _) (hf w.game) (World.begun_of_same rfl)
  seen tutorial := (Game.keepsRecord_seeTutorial tutorial).keepsCompleted g.event
  unqueued _ _ := .quiet ⟨rfl, rfl, fun h => ⟨_, h, .refl _⟩, List.suffix_rfl⟩ id
    (World.begun_of_same rfl)
  announced w _ := .quiet (.note w _) id (World.begun_note w rfl)
  lost w _ := .quiet (.note w _) id (World.begun_note w rfl)
  renewed hdepth hflight :=
    .quiet ⟨hdepth.symm, hflight.symm, fun h => ⟨_, h, .refl _⟩, List.suffix_rfl⟩ id
      (World.begun_of_same rfl)

/-- To put another state in the place of the session's begins nothing. -/
theorem Play.begun_setState (p : Play) (s : SessionState) :
    p.world.begun (p.move (.setState s)).2.world = [] :=
  World.begun_of_same rfl

namespace Play.Ready

variable {p : Play} (h : p.Ready Engine.IsBuilt Wiring.IsSession) {mv : Move}

include h

/-- A move of the host in a run with built catalogs and sessions only is shut. -/
theorem shut_move (hm : ∀ f, mv.change? = some f → KeepsMilestone m f) :
    Shut m p.world (p.move mv).2.world := by
  have hgoverned : ∃ g, p.Governed (KeepsMilestone m) (Gated m g) := by
    let nobody : Event := ⟨"", .ofAuthored {}, [], [], false⟩
    cases he : p.engine with
    | none =>
        exact ⟨⟨0, nobody⟩, governed_gated h.wiring fun e he' => by rw [he] at he'; cases he'⟩
    | some e =>
        refine ⟨⟨e.catalog.events.length, nobody⟩, governed_gated h.wiring fun e' he' => ?_⟩
        obtain rfl := Option.some.inj (he.symm.trans he')
        exact (h.engine e he).watches_none m nobody
  obtain ⟨g, governed⟩ := hgoverned
  exact (governed.move h.depth h.inFlight hm).toShut

/-- A move begins no event that waits for a milestone which was set before. -/
theorem closed_move (hset : p.world.HasMilestone m) :
    ∀ c ∈ p.world.begun (p.move mv).2.world, .milestoneNotSet m ∉ c.event.conditions := by
  intro c hc
  by_cases hstate : ∃ s, mv = .setState s
  · obtain ⟨s, rfl⟩ := hstate
    rw [p.begun_setState] at hc
    cases hc
  · refine (h.shut_move fun f hf => ?_).shut hset c hc
    exact Move.keepsMilestone_change (fun s heq => absurd ⟨s, heq⟩ hstate) hf

section Gate

variable (he : p.engine = some e) {t : String} (hg : g ∈ e.catalog.candidates t)
variable (hgate : g.event.IsGate m)

include he hg hgate

/-- The gate is watched by whatever engine there is. -/
theorem watches : ∀ e', p.engine = some e' → e'.Watches m g := by
  intro e' he'
  obtain rfl := Option.some.inj (he.symm.trans he')
  exact (h.engine e he).watches hg hgate

/-- A move begins a gate as often at most as dispatches were open when the milestone was set, and
closes it if it does. -/
theorem gate_move (mv : Move) :
    p.world.timesBegun (p.move mv).2.world g.position ≤
      g.event.rounds (p.world.openWhenSet (p.move mv).2.world m) ∧
    (0 < p.world.timesBegun (p.move mv).2.world g.position →
      (p.move mv).2.world.HasMilestone m) := by
  by_cases hstate : ∃ s, mv = .setState s
  · obtain ⟨s, rfl⟩ := hstate
    rw [World.timesBegun_of_begun (p.begun_setState s)]
    exact ⟨Nat.zero_le _, fun hpos => absurd hpos (Nat.lt_irrefl 0)⟩
  · have governed := Play.governed_gated h.wiring (h.watches he hg hgate)
    have hgated := governed.move h.depth h.inFlight (m := mv)
      fun f hf => Move.keepsMilestone_change (fun s heq => absurd ⟨s, heq⟩ hstate) hf
    refine ⟨?_, fun hpos => hgated.hasMilestone (Nat.ne_of_gt hpos)⟩
    by_cases hnone : p.world.timesBegun (p.move mv).2.world g.position = 0
    · rw [hnone]
      exact Nat.zero_le _
    · obtain ⟨x, hx, hbound⟩ := hgated.bound hnone
      rw [World.openWhenSet, hx]
      exact Nat.le_trans (Nat.le_add_left _ _) hbound

/-- It begins a gate that must not fire again once. -/
theorem once_move (honce : g.event.isOnce = true) :
    p.world.timesBegun (p.move mv).2.world g.position ≤ 1 := by
  by_cases hstate : ∃ s, mv = .setState s
  · obtain ⟨s, rfl⟩ := hstate
    rw [World.timesBegun_of_begun (p.begun_setState s)]
    exact Nat.zero_le 1
  · have governed := Play.governed_singly h.wiring honce (h.watches he hg hgate)
    have hsingly := governed.move h.depth h.inFlight (m := mv)
      fun f hf => Move.keepsCompleted_change (fun s heq => hstate ⟨s, heq⟩) g.event hf
    by_cases hnone : p.world.timesBegun (p.move mv).2.world g.position = 0
    · rw [hnone]
      exact Nat.zero_le 1
    · exact Nat.le_of_eq (hsingly.once hnone).1

end Gate

/-- A run in which the host does not take the milestone back is shut. -/
theorem shut_proceed {steps : List HostStep}
    (hsteps : ∀ x, .move x ∈ steps → x.Within Engine.IsBuilt Wiring.IsSession fun _ => True)
    (hkept : ∀ s, .move (.setState s) ∈ steps → s.milestones.contains m = true) :
    Shut m p.world (p.proceed steps).play.world := by
  have hwithin : ∀ x, .move x ∈ steps →
      x.Within Engine.IsBuilt Wiring.IsSession (KeepsMilestone m) := by
    intro x hx
    refine ⟨(hsteps x hx).engine, (hsteps x hx).wiring, fun f hf => ?_⟩
    exact Move.keepsMilestone_change (fun s heq => hkept s (heq ▸ hx)) hf
  exact (h.proceed Shut.refl Shut.trans
    (fun w => .quiet List.suffix_rfl id (World.begun_of_same rfl))
    (fun hp hm => hp.shut_move hm.change) hwithin).2

end Play.Ready

end Host

/-- **A gate closes behind its event.** Once a milestone is set, no dispatch that starts later, by
the host or inside another, begins an event that waits for it not to be set. So in each move of
the host no such event is begun if the milestone was set before. An event that also sets the
milestone, at the top level of its actions, is begun in one move at most: if it is begun then the
milestone is set after the move, and it stays set, and no event that waits for it is begun any more,
unless the host takes the milestone back. In that move the event is begun once if it must not fire
again, and also if it does not listen for player actions; else it is begun at most once for each of
the dispatches that were open when the milestone was set, since these go on with the snapshots that
they have. All this holds of events that may be repeated and of events without an id. -/
theorem gate_closes_behind_event {events : List Event} {catalog : Catalog}
    (hcatalog : Catalog.ofEvents events = .ok catalog) {pre post : List HostStep} {mv : Move}
    (hhost : ∀ x, .move x ∈ pre ++ .move mv :: post →
      x.Within Engine.IsBuilt Wiring.IsSession fun _ => True)
    (config : EngineConfig) (screen : Screen) (journaled : Bool) (state : SessionState)
    (m : String) :
    let before := ((Play.start catalog config ⟨.session screen, journaled⟩ state).proceed pre).play
    let after := (before.move mv).2
    let last := (after.proceed post).play
    (∀ (e : Engine) (wiring : Wiring), e.IsBuilt → wiring.IsSession →
      ∀ (k : Nat) (t : String) (payload : Payload) (w : World),
        w.depth = 0 ∨ t = Engine.raisedType → w.HasMilestone m →
          ∀ c ∈ w.begun (e.dispatch wiring (e.reach wiring k) t payload w).2,
            .milestoneNotSet m ∉ c.event.conditions) ∧
    (before.world.HasMilestone m →
      ∀ c ∈ before.world.begun after.world, .milestoneNotSet m ∉ c.event.conditions) ∧
    ∀ e, before.engine = some e → ∀ t, ∀ c ∈ e.catalog.candidates t, c.event.IsGate m →
      (c.event.isOnce = true → before.world.timesBegun after.world c.position ≤ 1) ∧
      (c.event.trigger.typeKey ≠ Engine.raisedType →
        before.world.timesBegun after.world c.position ≤ 1) ∧
      before.world.timesBegun after.world c.position ≤ before.world.openWhenSet after.world m ∧
      (0 < before.world.timesBegun after.world c.position → after.world.HasMilestone m ∧
        ((∀ s, .move (.setState s) ∈ post → s.milestones.contains m = true) →
          last.world.HasMilestone m ∧ ∀ x ∈ after.world.begun last.world,
            .milestoneNotSet m ∉ x.event.conditions)) := by
  intro before after last
  have hpre : ∀ x, .move x ∈ pre → x.Within Engine.IsBuilt Wiring.IsSession fun _ => True :=
    fun x hx => hhost x (List.mem_append_left _ hx)
  have hmv : mv.Within Engine.IsBuilt Wiring.IsSession fun _ => True :=
    hhost mv (List.mem_append_right _ List.mem_cons_self)
  have hstart : (Play.start catalog config ⟨.session screen, journaled⟩ state).Ready
      Engine.IsBuilt Wiring.IsSession := .start ⟨events, hcatalog⟩ ⟨screen, rfl⟩ state
  have hbefore : before.Ready Engine.IsBuilt Wiring.IsSession :=
    (hstart.proceed (P := fun _ _ => True) (fun _ => trivial) (fun _ _ => trivial)
      (fun _ => trivial) (fun _ _ => trivial) hpre).1
  have hafter : after.Ready Engine.IsBuilt Wiring.IsSession := hbefore.move hmv
  refine ⟨fun e wiring hbuilt hsession k t payload w ht hset c => ?_, hbefore.closed_move,
    fun e he t c hc hgate => ?_⟩
  · obtain ⟨screen, hscreen⟩ := hsession
    have conduct := conduct_gated hscreen (hbuilt.watches_none m c.event)
    exact (conduct.dispatch (conduct.reach_lawful k) ht payload).shut hset c
  · obtain ⟨hrounds, hcloses⟩ := hbefore.gate_move he hc hgate mv
    refine ⟨hbefore.once_move he hc hgate, fun hother => ?_, ?_,
      fun hbegun => ⟨hcloses hbegun, fun hkept => ?_⟩⟩
    · exact Nat.le_trans hrounds (c.event.rounds_le_one hother _)
    · exact Nat.le_trans hrounds (c.event.rounds_le _)
    have hpost : ∀ x, .move x ∈ post → x.Within Engine.IsBuilt Wiring.IsSession fun _ => True :=
      fun x hx => hhost x (List.mem_append_right _ (List.mem_cons_of_mem _ hx))
    have hshut := hafter.shut_proceed hpost hkept
    exact ⟨hshut.kept (hcloses hbegun), hshut.shut (hcloses hbegun)⟩

/-- A singer who waits for nobody to have sung yet. -/
def solo : Event where
  id := "solo"
  trigger := .ofAuthored { type := "player_action" }
  conditions := [.milestoneNotSet "sung"]
  actions := [.deed (.setMilestone (some "sung")), .deed (.giveXp (some 5))]
  repeatable := true

/-- A singer behind a chorus that sings along with whoever sings. -/
def chorus : List Event :=
  [{ id := "refrain", trigger := .ofAuthored { type := "player_action", action := some "sing" },
     conditions := [], actions := [.playerAction (some "sing") none], repeatable := true }, solo]

theorem solo_isGate : solo.IsGate "sung" := ⟨List.mem_cons_self, List.mem_cons_self⟩

theorem solo_mem_candidates {catalog : Catalog} (h : Catalog.ofEvents chorus = .ok catalog) :
    ⟨1, solo⟩ ∈ catalog.candidates "player_action" := by
  rw [Catalog.candidates_ofEvents h]
  exact Catalog.mem_listeners_iff.2 ⟨⟨Nat.zero_le 1, rfl⟩, by decide⟩

/-- The solo is a gate, and yet it is sung twice when somebody sings: inside the refrain, which comes
first, and once more after it. -/
theorem solo_is_sung_twice : ∃ catalog, Catalog.ofEvents chorus = .ok catalog ∧
    ⟨1, solo⟩ ∈ catalog.candidates "player_action" ∧
    .milestoneNotSet "sung" ∈ solo.conditions ∧
    .deed (.setMilestone (some "sung")) ∈ solo.actions ∧
    let p := Play.start catalog {} ⟨.session .park, true⟩ {}
    let q := (p.move (.occur (.playerAction "sing" none))).2
    p.world.timesBegun q.world 1 = 2 ∧ announcements "solo" q.world.trace = 2 ∧
      q.world.game.progress.xp = 10 := by
  exact ⟨_, rfl, solo_mem_candidates rfl, solo_isGate.waits, solo_isGate.closes, by decide +kernel,
    by decide +kernel, by decide +kernel⟩

/-- After that nobody sings a solo any more. -/
theorem solo_is_over : ∃ catalog, Catalog.ofEvents chorus = .ok catalog ∧
    let before := ((Play.start catalog {} ⟨.session .park, true⟩ {}).proceed []).play
    let after := (before.move (.occur (.playerAction "sing" none))).2
    let last := (after.proceed [.move (.occur (.playerAction "sing" none))]).play
    before.world.timesBegun after.world 1 ≤ 2 ∧ 0 < before.world.timesBegun after.world 1 ∧
      (after.world.begun last.world).length = 1 ∧
      ∀ x ∈ after.world.begun last.world, .milestoneNotSet "sung" ∉ x.event.conditions := by
  refine ⟨_, rfl, ?_⟩
  have hcatalog : Catalog.ofEvents chorus = .ok _ := rfl
  have hsing : (Move.occur (.playerAction "sing" none)).Within Engine.IsBuilt Wiring.IsSession
      fun _ => True := ⟨(fun h => by cases h), (fun h => by cases h), fun _ _ => trivial⟩
  have hhost : ∀ x, .move x ∈ [] ++ HostStep.move (.occur (.playerAction "sing" none)) ::
      [.move (.occur (.playerAction "sing" none))] →
      x.Within Engine.IsBuilt Wiring.IsSession fun _ => True := by
    intro x hx
    simp only [List.nil_append, List.mem_cons, HostStep.move.injEq, List.not_mem_nil, or_false,
      or_self] at hx
    exact hx ▸ hsing
  have hkept : ∀ s, HostStep.move (.setState s) ∈
      [HostStep.move (.occur (.playerAction "sing" none))] →
      s.milestones.contains "sung" = true := by
    simp
  obtain ⟨-, -, hbound, hover⟩ := (gate_closes_behind_event hcatalog hhost {} .park true {}
    "sung").2.2 _ rfl "player_action" ⟨1, solo⟩ (solo_mem_candidates hcatalog) solo_isGate
  exact ⟨Nat.le_trans hbound (by decide +kernel), by decide +kernel, by decide +kernel,
    ((hover (by decide +kernel)).2 hkept).2⟩

end Narrative
