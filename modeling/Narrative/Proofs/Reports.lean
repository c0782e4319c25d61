import Narrative.Proofs.Conduct

set_option autoImplicit false

/-!
# What reports and counters account for

A dispatch is through with each of its candidates on exactly one way (`Engine.Exit`) and puts one
verdict about it into its report. So the counts of the verdicts, the fired events among them, add
up to the candidates considered.

The counter of fired events goes on through all dispatches, nested ones included, whose reports
nobody sees. It is reconciled with the calls to the game: each event that fires is announced before
it is counted, so where all events have ids the counter grows by the announcements made
(`Tallied`). What happens between the call and the count may itself be a run of the engine, and is
reconciled on its own.
-/

namespace Narrative

/-! ## Reports -/

/-- Every candidate has one of six verdicts. -/
theorem Report.considered_eq (r : Report) :
    r.considered = r.countOf .completed + r.countOf .inFlight + r.countOf .failsConditions +
      r.countOf .failsTrigger + r.countOf .noEffect + r.fired.length := by
  obtain ⟨triggerType, refused, rulings⟩ := r
  simp only [considered, countOf, fired, List.length_map, ← List.countP_eq_length_filter]
  induction rulings with
  | nil => rfl
  | cons ruling rest ih =>
      obtain ⟨id, verdict⟩ := ruling
      cases verdict <;> simp only [List.countP_cons, List.length_cons, ih] <;> simp <;> omega

/-- The ids of the fired events stand in the order of the candidates. -/
theorem Report.fired_sublist (r : Report) : r.fired.Sublist (r.rulings.map (·.1)) :=
  List.filter_sublist.map _

namespace Engine

variable {e : Engine} {wiring : Wiring} {k : Nat} {s : SessionState} {payload : Payload}

/-- A decided candidate was left on one of the ways. -/
theorem exit_of_decided {ran : Bool} {t : Turn} (h : t.Decided e wiring k s payload ran) :
    e.Exit wiring (e.reach wiring k) s payload t.candidate t.before t.verdict := by
  obtain ⟨hdecides, hs⟩ := h
  obtain ⟨c, w, verdict, v⟩ := t
  simp only at hdecides hs ⊢
  cases hdecides with
  | passed _ _ _ hexit => exact hexit
  | @executed took v heligible hlive hfly =>
      exact .executed took heligible (not_recorded hs heligible hlive) (congrArg Prod.fst hfly)

/-- A dispatch is refused exactly if too many are open, and then its report is empty. -/
theorem refused_iff {reach : Reach} {t : String} {w : World} :
    (e.dispatch wiring reach t payload w).1.refused = true ↔
      e.config.dispatch.maxDepth ≤ w.depth := by
  rw [dispatch]
  split
  · next h => exact iff_of_true rfl h
  · next h => exact iff_of_false Bool.false_ne_true h

theorem rulings_of_refused {reach : Reach} {t : String} {w : World}
    (h : (e.dispatch wiring reach t payload w).1.refused = true) :
    (e.dispatch wiring reach t payload w).1.rulings = [] := by
  rw [dispatch, if_pos (refused_iff.1 h)]

section Admitted

variable {reach : Reach} {t : String} {w : World}
variable (hadmitted : (e.dispatch wiring reach t payload w).1.refused = false)

include hadmitted

/-- Else it tells the verdict of every turn. -/
theorem rulings_of_admitted :
    (e.dispatch wiring reach t payload w).1.rulings =
      (e.turns wiring reach t payload w).map fun x => (x.candidate.event.id, x.verdict) := by
  have hlimit : ¬ e.config.dispatch.maxDepth ≤ w.depth := by
    rw [← refused_iff, hadmitted]
    exact Bool.false_ne_true
  exact congrArg (fun r => r.1.rulings) (e.dispatch_eq_turns wiring reach t payload hlimit)

variable {events : List Event} (hcatalog : Catalog.ofEvents events = .ok e.catalog)

include hcatalog

/-- So it tells a verdict of every event of the type, in authored order. -/
theorem ids_of_admitted :
    (e.dispatch wiring reach t payload w).1.rulings.map (·.1) =
      (events.filter (·.trigger.typeKey == Text.typeKey t)).map (·.id) := by
  rw [rulings_of_admitted hadmitted, ← Catalog.map_event_listeners _ 0,
    ← map_candidate_turns hcatalog wiring reach t payload w]
  simp only [List.map_map]
  rfl

theorem considered_of_admitted :
    (e.dispatch wiring reach t payload w).1.considered =
      events.countP (·.trigger.typeKey == Text.typeKey t) := by
  rw [Report.considered, ← List.length_map (·.1), ids_of_admitted hadmitted hcatalog,
    List.length_map, List.countP_eq_length_filter]

end Admitted

end Engine

/-! ## Announcements -/

/-- Whether a call announces an event. -/
def Entry.isAnnouncement : Entry → Bool
  | .effect (.eventCompleted _) _ => true
  | _ => false

/-- The number of calls since an earlier world that announced an event. -/
def World.announced (u v : World) : Nat := (callsIn (u.since v)).countP (·.isAnnouncement)

namespace World

variable {u v w : World}

theorem announced_trans (huv : u.trace <:+ v.trace) (hvw : v.trace <:+ w.trace) :
    u.announced w = u.announced v + v.announced w := by
  rw [announced, since_trans huv hvw, callsIn_append, List.countP_append, announced, announced]

/-- Nothing is announced by what is not in the trace. -/
theorem announced_of_same (h : v.trace = u.trace) : u.announced v = 0 := by
  rw [announced, since_of_trace (h.trans (List.nil_append _).symm)]
  rfl

/-- Nor by something that is no announcement. -/
theorem announced_of_happening {x : Happening} (h : v.trace = ⟨x, u.game, u.depth⟩ :: u.trace)
    (hx : ∀ id accepted, x ≠ .called (.effect (.eventCompleted id) accepted)) :
    u.announced v = 0 := by
  rw [announced, since_cons h]
  cases hentry : x.entry? with
  | none =>
      rw [callsIn_cons_of_none hentry]
      rfl
  | some entry =>
      obtain rfl : x = .called entry := by
        unfold Happening.entry? at hentry
        split at hentry
        · rw [Option.some.inj hentry]
        · cases hentry
      have hquiet : entry.isAnnouncement = false := by
        unfold Entry.isAnnouncement
        split
        · exact absurd rfl (hx _ _)
        · rfl
      simp [callsIn_cons_called, hquiet]

/-- A call that announces an event is counted once. -/
theorem announced_called {id : String} {g : Game} {depth : UInt32}
    (h : v.trace = ⟨.called (.effect (.eventCompleted id) true), g, depth⟩ :: u.trace) :
    u.announced v = 1 := by
  rw [announced, since_cons h]
  rfl

/-- An event with an id is announced once when it takes effect. -/
theorem announced_fire {c : Candidate} (hid : c.event.hasId = true) :
    w.trace <:+ (w.fire c).trace ∧ w.announced (w.fire c) = 1 := by
  have htrace : (w.fire c).trace = ⟨.called (.effect (.eventCompleted c.event.id) true),
      ((w.land c.position).changeGame c.event.record).game, w.depth⟩ :: w.trace := by
    simp only [fire, hid, if_true]
    rfl
  constructor
  · rw [htrace]
    exact List.suffix_cons _ _
  · exact announced_called htrace

end World

/-- The counter of fired events went up by the announcements since an earlier world. -/
structure Tallied (u v : World) : Prop where
  trace : u.trace <:+ v.trace
  fired : v.counters.eventsFired = u.counters.eventsFired + u.announced v

namespace Tallied

variable {u v w : World}

theorem trans (huv : Tallied u v) (hvw : Tallied v w) : Tallied u w where
  trace := huv.trace.trans hvw.trace
  fired := by
    rw [hvw.fired, huv.fired, World.announced_trans huv.trace hvw.trace, Nat.add_assoc]

/-- A change that leaves the trace and the counter alone. -/
theorem same (htrace : v.trace = u.trace)
    (hfired : v.counters.eventsFired = u.counters.eventsFired) : Tallied u v where
  trace := htrace ▸ List.suffix_rfl
  fired := by rw [hfired, World.announced_of_same htrace, Nat.add_zero]

/-- Something that is no announcement happens. -/
theorem happens {x : Happening} (htrace : v.trace = ⟨x, u.game, u.depth⟩ :: u.trace)
    (hfired : v.counters.eventsFired = u.counters.eventsFired)
    (hx : ∀ id accepted, x ≠ .called (.effect (.eventCompleted id) accepted)) : Tallied u v where
  trace := htrace ▸ List.suffix_cons _ _
  fired := by rw [hfired, World.announced_of_happening htrace hx, Nat.add_zero]

theorem note (w : World) {x : Happening}
    (hx : ∀ id accepted, x ≠ .called (.effect (.eventCompleted id) accepted)) :
    Tallied w (w.note x) :=
  happens rfl rfl hx

/-- A touch counts no event, and announces none. -/
theorem touch {alive : Option Nat} {wiring : Wiring} (h : Touch alive wiring u v) :
    Tallied u v := by
  cases h with
  | counted _ f hf => exact same rfl (hf _).2
  | called _ entry hentry =>
      exact note u fun id accepted h => hentry id accepted (Happening.called.inj h)
  | changed | parked | kept | handed | logged => exact same rfl rfl
  | redeemed | lapsed => exact happens rfl rfl fun _ _ h => Happening.noConfusion h
  | ignored | returned => exact note u fun _ _ h => Happening.noConfusion h

theorem tracks (alive : Option Nat) (wiring : Wiring) : Tracks alive wiring Tallied where
  refl _ := same rfl rfl
  trans := trans
  touch := touch

/-- An event with an id is announced when it takes effect, and counted after that. -/
theorem fire {c : Candidate} (hid : c.event.hasId = true) (h : Tallied (u.fire c) v) :
    Tallied u v.tally := by
  obtain ⟨hfire, hone⟩ := World.announced_fire (w := u) hid
  refine ⟨hfire.trans h.trace, ?_⟩
  have hbefore : (u.fire c).counters = u.counters :=
    World.fire_of (P := fun x => x.counters = u.counters) rfl id
  have hsince : u.announced v.tally = u.announced (u.fire c) + (u.fire c).announced v :=
    World.announced_trans hfire h.trace
  have hcount : v.tally.counters.eventsFired = v.counters.eventsFired + 1 := rfl
  rw [hcount, h.fired, hbefore, hsince, hone]
  omega

end Tallied

/-! ## Engines over events with ids -/

/-- A catalog that was built of events with ids. -/
def Catalog.IsNamed (c : Catalog) : Prop :=
  ∃ events, ofEvents events = .ok c ∧ ∀ x ∈ events, x.hasId = true

namespace Tallied

variable {e : Engine} {wiring : Wiring}

/-- A candidate that is executed is counted if it takes effect, as often as it is announced. -/
theorem flight {revive : Nat → World → World}
    (hrevive : Revives wiring (fun _ u _ v => Tallied u v) revive) {c : Candidate}
    (hid : c.event.hasId = true) {w v : World} (h : Tallied (Engine.begin c w) v) (took : Bool) :
    Tallied w (if took then Engine.announce wiring revive c.event (v.land c.position)
      else v.land c.position) := by
  have hbegun : Tallied w (Engine.begin c w) :=
    happens rfl rfl fun _ _ h => Happening.noConfusion h
  split
  · obtain ⟨x, hx, hannounce⟩ := (tracks none wiring).announce hrevive c v
    rw [hannounce]
    exact (hbegun.trans h).trans (fire hid hx)
  · have hlanded : Tallied v (v.land c.position) := same rfl rfl
    exact (hbegun.trans h).trans hlanded

/-- **Whatever an engine does, it counts an event for each that it announces.** -/
theorem law (hnamed : e.catalog.IsNamed) (base : List Nat) :
    Law e wiring base fun _ u _ v => Tallied u v where
  toActionLaw := Tracks.acts (P := fun _ => Tallied) fun _ => tracks _ wiring
  resumption _ _ _ hruns token w := by
    have htallied := fun actions w => ((hruns actions).lawful w).elim fun _ h => h
    exact ⟨false, (tracks _ wiring).follow htallied token w⟩
  stall w := note w fun _ _ h => Happening.noConfusion h
  refusal _ := happens rfl rfl fun _ _ h => Happening.noConfusion h
  nested {k u v b} _ _ h := by
    have hopened : Tallied u (Engine.openDispatch u) :=
      happens rfl rfl fun _ _ h => Happening.noConfusion h
    have hclosed : Tallied v v.leave := same rfl rfl
    exact (hopened.trans h).trans hclosed
  flight {k revive t c w v took} hrevive hc _ _ _ _ h := by
    obtain ⟨events, hcatalog, hids⟩ := hnamed
    have hget := Catalog.getElem?_of_mem_candidates hcatalog hc
    exact flight hrevive (hids _ (List.mem_of_getElem? hget)) h took
  mute _ _ _ _ _ _ _ h := h

theorem conduct (hnamed : e.catalog.IsNamed) (wiring : Wiring) : Conduct e wiring Tallied where
  toTracks := tracks _ wiring
  stalled w := note w fun _ _ h => Happening.noConfusion h
  dispatch hreach _ _ _ payload := ((law hnamed _).dispatch hreach (.inl rfl) payload).law

/-- So it is between moves. -/
theorem steered {p : Play} (hnamed : ∀ e, p.engine = some e → e.catalog.IsNamed) :
    p.Steered (fun _ => True) Tallied where
  conduct e he := conduct (hnamed e he) p.wiring
  vacant _ := tracks none p.wiring
  arranged _ _ _ := same rfl rfl
  seen _ := trivial
  unqueued _ _ := same rfl rfl
  lost w _ := note w fun _ _ h => Happening.noConfusion h

end Tallied

/-! ## The accounts -/

/-- The number of events that the host announces by a move of its own. -/
def Move.announcements : Move → Nat
  | .effect (.eventCompleted _) => 1
  | _ => 0

/-- **In a move** the counter goes up by the announcements that the host does not make itself, unless
it starts an engine. -/
theorem Play.eventsFired_move {p : Play} (hnamed : ∀ e, p.engine = some e → e.catalog.IsNamed)
    (hdepth : p.world.depth = 0) {m : Move} (hstays : ∀ catalog config, m ≠ .restart catalog config) :
    (p.move m).2.world.counters.eventsFired + m.announcements =
      p.world.counters.eventsFired + p.world.announced (p.move m).2.world := by
  have steered := Tallied.steered hnamed
  by_cases hquiet : ∀ id, m ≠ .effect (.eventCompleted id)
  · have hnone : m.announcements = 0 := by
      unfold Move.announcements
      split
      · exact absurd rfl (hquiet _)
      · rfl
    rw [hnone, (steered.move hdepth (fun _ _ => trivial) hstays hquiet).fired, Nat.add_zero]
  · obtain ⟨id, hid⟩ := not_forall.1 hquiet
    obtain rfl := not_not.1 hid
    have htallied : Tallied (p.world.note (.called (.effect (.eventCompleted id) true)))
        (p.move (.effect (.eventCompleted id))).2.world := steered.announce id
    have hsince := World.announced_trans (List.suffix_cons _ p.world.trace) htallied.trace
    have hcalled : p.world.announced
        (p.world.note (.called (.effect (.eventCompleted id) true))) = 1 :=
      World.announced_called rfl
    have hcount : (p.world.note (.called (.effect (.eventCompleted id) true))).counters =
        p.world.counters := rfl
    have hown : (Move.effect (.eventCompleted id)).announcements = 1 := rfl
    rw [htallied.fired, hsince, hcalled, hcount, hown]
    omega

/-- **Every report accounts for every candidate, and the counter for every event that fired.** A
dispatch, by the host or inside another, is refused exactly if too many are open, and then nothing
is counted. Else its report has one verdict for each event of the type, in authored order, which
says on which way the dispatch was through with it (`Engine.Exit`). So the candidates considered are
the events of the type, each is counted once, and the ids that fired are a part of theirs in
the same order. In each step of a host over a catalog of events with ids, the counter of fired
events grows by the announcements made in the step, in whatever dispatch they are made, apart from
those the host makes itself; only the counters of an engine that is started are new. -/
theorem reports_account_for_candidates {events : List Event} {catalog : Catalog}
    (hcatalog : Catalog.ofEvents events = .ok catalog) (config : EngineConfig) (serial : Nat)
    (wiring : Wiring) :
    let e : Engine := { catalog, config, serial }
    (∀ (k : Nat) (triggerType : String) (payload : Payload) (w : World),
      let reach := e.reach wiring k
      let report := (e.dispatch wiring reach triggerType payload w).1
      let turns := e.turns wiring reach triggerType payload w
      (report.refused = true ↔ config.dispatch.maxDepth ≤ w.depth) ∧
      (report.refused = true →
        report.considered = 0 ∧ (∀ v, report.countOf v = 0) ∧ report.fired = []) ∧
      (report.refused = false →
        report.considered = events.countP (·.trigger.typeKey == Text.typeKey triggerType) ∧
        report.considered = report.countOf .completed + report.countOf .inFlight +
          report.countOf .failsConditions + report.countOf .failsTrigger +
          report.countOf .noEffect + report.fired.length ∧
        report.fired.Sublist
          ((events.filter (·.trigger.typeKey == Text.typeKey triggerType)).map (·.id)) ∧
        turns.map (·.candidate) = Catalog.listeners (Text.typeKey triggerType) 0 events ∧
        report.rulings = turns.map (fun t => (t.candidate.event.id, t.verdict)) ∧
        ∀ t ∈ turns, t.before.inFlight = w.inFlight ∧
          e.Exit wiring reach w.game.state payload t.candidate t.before t.verdict)) ∧
    ∀ (state : SessionState) (steps : List HostStep),
      let before := ((Play.start catalog config wiring state).proceed steps).play
      (∀ e, before.engine = some e → e.catalog.IsNamed) →
        ∀ m, (∀ catalog config, m ≠ .restart catalog config) →
          let after := (before.move m).2
          after.world.counters.eventsFired + m.announcements =
            before.world.counters.eventsFired + before.world.announced after.world := by
  intro e
  constructor
  · intro k triggerType payload w reach report turns
    refine ⟨Engine.refused_iff, fun hrefused => ?_, fun hadmitted => ?_⟩
    · have hnone : report.rulings = [] := Engine.rulings_of_refused hrefused
      simp only [Report.considered, Report.countOf, Report.fired, hnone]
      exact ⟨rfl, fun _ => rfl, rfl⟩
    · have hids := Engine.ids_of_admitted (e := e) hadmitted hcatalog
      have hturns := Engine.map_candidate_turns (e := e) hcatalog wiring reach triggerType payload w
      refine ⟨Engine.considered_of_admitted hadmitted hcatalog, report.considered_eq,
        hids ▸ report.fired_sublist, hturns, Engine.rulings_of_admitted hadmitted, ?_⟩
      intro t ht
      obtain ⟨hflight, ran, hdecided⟩ := Turn.decided_of_mem_turns ht
      exact ⟨hflight, Engine.exit_of_decided hdecided⟩
  · intro state steps before hnamed m hstays
    have hany : ∀ m, Move.Within (fun _ => True) (fun _ => True) (fun _ => True) m :=
      fun m => ⟨fun _ _ => trivial, fun _ => trivial, fun _ _ => trivial⟩
    have hready : before.Ready (fun _ => True) fun _ => True :=
      ((Play.Ready.start trivial trivial state).proceed (P := fun _ _ => True) (fun _ => trivial)
        (fun _ _ => trivial) (fun _ => trivial) (fun _ _ => trivial) fun m _ => hany m).1
    exact Play.eventsFired_move hnamed hready.depth hstays

/-- When somebody knocks at the door, the guest enters inside its turn and is passed over in the
dispatch itself, so both events are accounted for in the report. Both are counted as fired, and
both are announced. -/
theorem guest_is_accounted_for : ∃ catalog, Catalog.ofEvents doorway = .ok catalog ∧
    let e : Engine := { catalog, config := {}, serial := 0 }
    let wiring : Wiring := ⟨.session .park, true⟩
    let knock : Payload := .playerAction "knock" none
    let report := (e.dispatch wiring (e.reach wiring 8) "player_action" knock {}).1
    let before := ((Play.start catalog {} wiring {}).proceed []).play
    let after := (before.move (.trigger "player_action" knock)).2
    report.fired = ["door"] ∧ report.countOf .completed = 1 ∧
    report.considered = report.countOf .completed + report.countOf .inFlight +
      report.countOf .failsConditions + report.countOf .failsTrigger +
      report.countOf .noEffect + report.fired.length ∧
    after.world.counters.eventsFired = 2 ∧
    after.world.counters.eventsFired =
      before.world.counters.eventsFired + before.world.announced after.world := by
  have hcatalog : Catalog.ofEvents doorway = .ok _ := rfl
  have hnamed : ∀ x ∈ doorway, x.hasId = true := by decide
  obtain ⟨hdispatch, hsteps⟩ :=
    reports_account_for_candidates hcatalog {} 0 ⟨.session .park, true⟩
  have hstep := hsteps {} [] (fun e he => ⟨doorway, Option.some.inj he ▸ hcatalog, hnamed⟩)
    (.trigger "player_action" (.playerAction "knock" none)) fun _ _ h => Move.noConfusion h
  refine ⟨_, hcatalog, by decide, by decide, ?_, by decide, hstep⟩
  exact ((hdispatch 8 "player_action" (.playerAction "knock" none) {}).2.2 (by decide)).2.1

end Narrative
