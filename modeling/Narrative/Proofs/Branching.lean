import Narrative.Proofs.Staging
import Narrative.Proofs.Policy
import Narrative.Proofs.Index
import Narrative.Proofs.Snapshot

set_option autoImplicit false

/-!
# A condition tested beforehand or in a branch

A condition can stand among the conditions of an event, or in a branch around its actions. In a
dispatch both are decided by the same snapshot, so the same events fire and the same comes of it
(`precondition_agrees_with_branch`).

What differs is how an event that does not fire is passed over. If the condition fails beforehand,
the event is rejected by its conditions. If it stands in a branch, the trigger is looked at, then
the record of now, and then the branch is executed without effect (`Verdict.Postponed`). All of
this leaves the world as it was but for counts and the trace: the event is in flight only while its
branch is tested, and nothing is dispatched meanwhile. That something was executed makes the
dispatch look at the record of now from then on, which it might as well do from the start
(`Engine.sweep_true`).
-/

namespace Narrative

/-! ## Verdicts and reports -/

/-- Two verdicts of which the second is the same, or gives another reason why an event that fails
its conditions did not fire. -/
inductive Verdict.Postponed : Verdict → Verdict → Prop where
  | same (verdict : Verdict) : Postponed verdict verdict
  | trigger : Postponed .failsConditions .failsTrigger
  | completed : Postponed .failsConditions .completed
  | effect : Postponed .failsConditions .noEffect

theorem Verdict.Postponed.fired {v v' : Verdict} (h : v.Postponed v') :
    v' = .fired ↔ v = .fired := by
  cases h <;> simp

theorem Verdict.Postponed.inFlight {v v' : Verdict} (h : v.Postponed v') :
    v' = .inFlight ↔ v = .inFlight := by
  cases h <;> simp

/-- Two reports about the same candidates, of which the same fired and the same were in flight. They
may differ in why the others did not fire. -/
structure Report.Postpones (r r' : Report) : Prop where
  compares : r.Compares Verdict.Postponed r'
  considered : r'.considered = r.considered
  fired : r'.fired = r.fired
  inFlight : r'.countOf .inFlight = r.countOf .inFlight

/-- Two answers to a move: reports that differ in why events did not fire, or the same answer. -/
inductive Answer.Postpones : Answer → Answer → Prop where
  | report {r r' : Report} (h : r.Postpones r') : Postpones (.report r) (.report r')
  | same (answer : Answer) : Postpones answer answer

theorem Answer.Compares.postpones {a a' : Answer} (h : a.Compares Verdict.Postponed a') :
    a.Postpones a' := by
  cases h with
  | report hreport =>
      exact .report ⟨hreport, hreport.considered, hreport.fired Verdict.Postponed.fired,
        hreport.countOf Verdict.Postponed.inFlight⟩
  | same => exact .same _

/-! ## Events and catalogs -/

/-- Two events of which the second is the same, or tests a condition of the first in a branch around
its actions. -/
inductive Event.Postpones : Event → Event → Prop where
  | same (event : Event) : Postpones event event
  | branch {event : Event} {before after : List Condition} {test : Condition}
      (hconditions : event.conditions = before ++ test :: after) :
      Postpones event { event with
        conditions := before ++ after, actions := [.branch test event.actions []] }

/-- Two catalogs of events of which the second ones may test conditions in branches. -/
def Catalog.Postpones (c c' : Catalog) : Prop :=
  ∃ events events', Catalog.ofEvents events = .ok c ∧ Catalog.ofEvents events' = .ok c' ∧
    List.Forall₂ Event.Postpones events events'

/-- Such events have the same name and listen for the same. -/
theorem Event.Postpones.indexes : Catalog.Indexes Event.Postpones where
  id h := by cases h <;> rfl
  typeKey h := by cases h <;> rfl

/-! ## Authored events -/

theorem Action.conditional_ne {key name : String} (hname : name.toList.take 3 ≠ ['i', 'f', '_']) :
    "if_" ++ key ≠ name := by
  rintro rfl
  exact hname (by simp)

/-- No deed has a type like that of a conditional action. -/
theorem Deed.known?_conditional (key : String) (a : Authored.ActionFields) :
    Deed.known? ("if_" ++ key) a = none := by
  unfold Deed.known?
  split
  all_goals first | rfl | exact absurd (by assumption) (Action.conditional_ne (by decide))

theorem Action.conditionKey?_append (key : String) :
    Action.conditionKey? ("if_" ++ key) = some key := by
  simp [Action.conditionKey?]

/-- A conditional action whose condition is known is a branch on that condition. -/
theorem Action.ofAuthored_if {key : String} {a : Authored.ActionFields} {test : Condition}
    (hkey : Text.typeKey a.type = "if_" ++ key)
    (htest : Condition.known? key (a.asCondition key) = some test)
    (thenDo elseDo onComplete : List Authored.Action) :
    Action.ofAuthored (.mk a thenDo elseDo onComplete) =
      .branch test (Action.ofAuthoredList thenDo) (Action.ofAuthoredList elseDo) := by
  have htested : Action.test? ("if_" ++ key) a = some test := by
    rw [Action.test?, Action.conditionKey?_append, Option.bind_some, htest]
  unfold Action.ofAuthored
  rw [hkey]
  simp only [Deed.known?_conditional, htested]
  split
  all_goals first | rfl | exact absurd (by assumption) (Action.conditional_ne (by decide))

/-- A conditional action of the type of a known condition and with its fields is a branch on that
condition. -/
theorem Action.ofAuthored_conditional {a : Authored.ActionFields} {d : Authored.Condition}
    (hkey : Text.typeKey a.type = "if_" ++ Text.typeKey d.type)
    (hfields : a.asCondition d.type = d) (hknown : (Condition.ofAuthored d).IsKnown)
    (thenDo elseDo onComplete : List Authored.Action) :
    Action.ofAuthored (.mk a thenDo elseDo onComplete) =
      .branch (Condition.ofAuthored d) (Action.ofAuthoredList thenDo)
        (Action.ofAuthoredList elseDo) := by
  obtain ⟨test, htest⟩ : ∃ test, Condition.known? (Text.typeKey d.type) d = some test := by
    cases h : Condition.known? (Text.typeKey d.type) d with
    | some test => exact ⟨test, rfl⟩
    | none =>
        refine absurd ?_ (hknown (Text.typeKey d.type))
        simp only [Condition.ofAuthored, h, Option.getD_none]
  have hcompiled : Condition.ofAuthored d = test := by
    simp only [Condition.ofAuthored, htest, Option.getD_some]
  have hrecord : a.asCondition (Text.typeKey d.type) = { d with type := Text.typeKey d.type } := by
    rw [← hfields]
    rfl
  rw [hcompiled]
  refine Action.ofAuthored_if hkey ?_ thenDo elseDo onComplete
  rw [hrecord, Condition.known?_retyped, htest]

/-- Two authored events of which the second is the same, or has a known condition of the first not
among its conditions but in a conditional action around its actions. -/
inductive Authored.Event.Postpones : Authored.Event → Authored.Event → Prop where
  | same (event : Authored.Event) : Postpones event event
  | branch {event : Authored.Event} {before after : List Authored.Condition}
      {d : Authored.Condition} {a : Authored.ActionFields}
      (hconditions : event.conditions = before ++ d :: after)
      (hknown : (Condition.ofAuthored d).IsKnown)
      (hkey : Text.typeKey a.type = "if_" ++ Text.typeKey d.type)
      (hfields : a.asCondition d.type = d) (onComplete : List Authored.Action) :
      Postpones event { event with
        conditions := before ++ after, actions := [.mk a event.actions [] onComplete] }

/-- Authored events that correspond are compiled to events that do. -/
theorem Event.Postpones.ofAuthored {event event' : Authored.Event} (h : event.Postpones event') :
    (Event.ofAuthored event).Postpones (.ofAuthored event') := by
  cases h with
  | same => exact .same _
  | @branch before after d a hconditions hknown hkey hfields onComplete =>
      have hcompiled : (Event.ofAuthored event).conditions =
          before.map Condition.ofAuthored ++ Condition.ofAuthored d ::
            after.map Condition.ofAuthored := by
        simp only [Event.ofAuthored, hconditions, List.map_append, List.map_cons]
      have hbranch := Action.ofAuthored_conditional hkey hfields hknown event.actions [] onComplete
      have hpostpones := Event.Postpones.branch hcompiled
      simp only [Event.ofAuthored, Action.ofAuthoredList, hbranch, List.map_append] at hpostpones ⊢
      exact hpostpones

/-! ## Postponed runs -/

/-- Behind the scenes a postponed test shows in the counts of the actions run and the unknown types
met, and in the trace. -/
def postponing : Staging where
  rewrite := id
  counters n n' := ∃ actions unknowns,
    n' = { n with actionsExecuted := actions, unknownEvaluations := unknowns }
  trace _ _ := True
  counters_refl n := ⟨n.actionsExecuted, n.unknownEvaluations, rfl⟩
  trace_refl _ := trivial
  counted more := by
    rintro n _ ⟨actions, unknowns, rfl⟩
    exact ⟨actions + more.actionsExecuted, unknowns + more.unknownEvaluations, rfl⟩
  noted _ _ _ _ := trivial

namespace Postponed

variable {e e' : Engine} {wiring : Wiring} {reach reach' : Reach} {u v : World}
variable {c c' : Candidate} {s : SessionState}

/-- Counting one of the two counts in the first world is not seen. -/
theorem tally_left (h : Restaged postponing u v) {f : Counters → Counters}
    (hf : ∀ n : Counters, f n = { n with
      actionsExecuted := (f n).actionsExecuted, unknownEvaluations := (f n).unknownEvaluations }) :
    Restaged postponing (u.count f) v := by
  obtain ⟨counters, trace, ⟨actions, unknowns, rfl⟩, -, rfl⟩ := h
  refine ⟨_, trace, ⟨actions, unknowns, rfl⟩, trivial, ?_⟩
  unfold World.restage World.count
  rw [hf u.counters]

/-- Nor is it in the second. -/
theorem tally_right (h : Restaged postponing u v) {f : Counters → Counters}
    (hf : ∀ n : Counters, f n = { n with
      actionsExecuted := (f n).actionsExecuted, unknownEvaluations := (f n).unknownEvaluations }) :
    Restaged postponing u (v.count f) := by
  obtain ⟨counters, trace, ⟨actions, unknowns, rfl⟩, -, rfl⟩ := h
  exact ⟨f { u.counters with actionsExecuted := actions, unknownEvaluations := unknowns }, trace,
    ⟨_, _, hf _⟩, trivial, rfl⟩

theorem conditionsHold_left (h : Restaged postponing u v) (cs : List Condition) :
    Restaged postponing (e.conditionsHold cs s u).2 v :=
  tally_left h fun _ => rfl

theorem conditionsHold_right (h : Restaged postponing u v) (cs : List Condition) :
    Restaged postponing u (e.conditionsHold cs s v).2 := by
  simp only [Engine.conditionsHold]
  exact tally_right h fun _ => rfl

theorem triggerMatches_right (h : Restaged postponing u v) (t : Trigger) (p : Payload) :
    Restaged postponing u (e.triggerMatches t p s v).2 := by
  simp only [Engine.triggerMatches]
  exact tally_right h fun _ => rfl

/-- Nobody sees what the trace tells of the second run. -/
theorem note_right (h : Restaged postponing u v) (x : Happening) :
    Restaged postponing u (v.note x) := by
  obtain ⟨counters, trace, hcount, -, rfl⟩ := h
  exact ⟨counters, ⟨x, u.game, u.depth⟩ :: trace, hcount, trivial, rfl⟩

/-- To put an event in flight and to take it out again leaves the world as it was. -/
theorem land_takeOff (w : World) (position : Nat) : (w.takeOff position).land position = w := by
  simp only [World.takeOff, World.land, List.erase_cons_head]

/-- Events are begun alike. -/
theorem begun (hposition : c'.position = c.position) (h : Restaged postponing u v) :
    Restaged postponing (Engine.begin c u) (Engine.begin c' v) := by
  obtain ⟨counters, trace, hcount, -, rfl⟩ := h
  refine ⟨counters, ⟨.began c', u.game, u.depth⟩ :: trace, hcount, trivial, ?_⟩
  unfold Engine.begin World.takeOff
  rw [hposition]
  rfl

/-- An event whose actions come to nothing is in flight while they are executed, and leaves the world
as it was. -/
theorem fly_blocked (hrun : ∀ {u v : World}, Restaged postponing u v →
      (Action.runAll e' wiring reach' c'.event.actions s v).1 = false ∧
        Restaged postponing u (Action.runAll e' wiring reach' c'.event.actions s v).2)
    (h : Restaged postponing u v) :
    (e'.fly wiring reach' s c' v).1 = false ∧
      Restaged postponing u (e'.fly wiring reach' s c' v).2 := by
  have hbegun : Restaged postponing (u.takeOff c'.position) (Engine.begin c' v) :=
    Restaged.guards id (c'.position :: ·) (note_right h (.began c'))
  obtain ⟨htook, hworld⟩ := hrun hbegun
  have hlanded := Restaged.guards id (·.erase c'.position) hworld
  refine ⟨htook, ?_⟩
  have hland : ((u.takeOff c'.position).land c'.position) = u := land_takeOff u c'.position
  exact hland ▸ hlanded

/-- Events whose actions come to the same are executed alike. -/
theorem fly_passed (hposition : c'.position = c.position)
    (hrun : ∀ {u v : World}, Restaged postponing u v →
      Matches (Restaged postponing) (Action.runAll e wiring reach c.event.actions s u)
        (Action.runAll e' wiring reach' c'.event.actions s v))
    (h : Restaged postponing u v) :
    Matches (Restaged postponing) (e.fly wiring reach s c u) (e'.fly wiring reach' s c' v) := by
  have hran := hrun (begun hposition h)
  refine ⟨hran.answer, ?_⟩
  have hlanded := Restaged.guards id (·.erase c.position) hran.world
  simp only [Engine.fly, hposition]
  exact hlanded

/-- **One candidate.** The second event has one test less among its conditions, and executes nothing
if that test fails. So it is decided about alike, up to the reason why it does not fire. -/
theorem rule (hconfig : e'.config = e.config)
    (hreach : reach.Parallel wiring (Restaged postponing) reach')
    (hreceiver : wiring.receiver.IgnoresStaging postponing) (hposition : c'.position = c.position)
    (hid : c'.event.id = c.event.id) (hrepeatable : c'.event.repeatable = c.event.repeatable)
    (htrigger : c'.event.trigger = c.event.trigger) (passes : Bool)
    (hconditions : Condition.allHold e.config.dispatch.unknownConditions s c.event.conditions =
      (passes && Condition.allHold e.config.dispatch.unknownConditions s c'.event.conditions))
    (hpassed : passes = true → ∀ {u v : World}, Restaged postponing u v →
      Matches (Restaged postponing) (Action.runAll e wiring reach c.event.actions s u)
        (Action.runAll e' wiring reach' c'.event.actions s v))
    (hblocked : passes = false → ∀ {u v : World}, Restaged postponing u v →
      (Action.runAll e' wiring reach' c'.event.actions s v).1 = false ∧
        Restaged postponing u (Action.runAll e' wiring reach' c'.event.actions s v).2)
    (payload : Payload) (h : Restaged postponing u v) :
    Compares Verdict.Postponed (Restaged postponing) (e.rule wiring reach s payload true c u)
      (e'.rule wiring reach' s payload true c' v) := by
  have hflying : v.inFlight.contains c'.position = u.inFlight.contains c.position := by
    rw [h.inFlight, hposition]
  have hholds' : (e'.conditionsHold c'.event.conditions s v).1 =
      Condition.allHold e.config.dispatch.unknownConditions s c'.event.conditions := by
    rw [Engine.conditionsHold, hconfig]
  have hholds : (e.conditionsHold c.event.conditions s u).1 =
      (passes && Condition.allHold e.config.dispatch.unknownConditions s c'.event.conditions) :=
    hconditions
  rw [Engine.rule, Engine.rule]
  simp only [Event.isCompleted_congr hid hrepeatable, hflying, hholds, hholds']
  split
  · exact ⟨.same _, h⟩
  split
  · exact ⟨.same _, Restaged.count { cyclesSkipped := 1 } h⟩
  have hlooked := conditionsHold_right (e := e') (s := s) (conditionsHold_left (e := e) (s := s) h
    c.event.conditions) c'.event.conditions
  cases hothers : Condition.allHold e.config.dispatch.unknownConditions s c'.event.conditions with
  | false =>
      simp only [Bool.and_false, Bool.not_false, if_true]
      exact ⟨.same _, hlooked⟩
  | true =>
      cases passes with
      | false =>
          have hmatched := triggerMatches_right (e := e') (s := s) hlooked c'.event.trigger payload
          have hflown := fly_blocked (hblocked rfl) hmatched
          simp only [Bool.false_and, Bool.not_false, Bool.not_true, Bool.false_eq_true, if_true,
            if_false, Bool.true_and, hflown.1]
          split
          · exact ⟨.trigger, hmatched⟩
          split
          · exact ⟨.completed, hmatched⟩
          · exact ⟨.effect, hflown.2⟩
      | true =>
          have hmatch := Restaged.triggerMatches hconfig c.event.trigger payload s hlooked
          have hflown := fly_passed hposition (hpassed rfl) hmatch.world
          have hannounced := Engine.announce_carries hid hrepeatable
            (Restaged.changeGame c.event.record)
            (fun x _ _ h => (Restaged.unaware hreceiver).perform hreach.revive x h)
            (Restaged.count { eventsFired := 1 }) hflown.world
          simp only [Bool.and_self, Bool.not_true, Bool.false_eq_true, if_false, Bool.true_and,
            htrigger, hmatch.answer, Restaged.state hmatch.world, hflown.answer]
          split
          · exact ⟨.same _, hmatch.world⟩
          split
          · exact ⟨.same _, hmatch.world⟩
          split
          · exact ⟨.same _, hannounced⟩
          · exact ⟨.same _, hflown.world⟩

/-! ## Engines -/

/-- The same actions come to the same. -/
theorem runAll (hconfig : e'.config = e.config) (hserial : e'.serial = e.serial)
    (hreach : reach.Parallel wiring (Restaged postponing) reach')
    (hreceiver : wiring.receiver.IgnoresStaging postponing) (actions : List Action)
    (s : SessionState) (h : Restaged postponing u v) :
    Matches (Restaged postponing) (Action.runAll e wiring reach actions s u)
      (Action.runAll e' wiring reach' actions s v) := by
  have acting := (Restaged.unaware hreceiver).acting (fun _ => True) hserial (fun _ => rfl)
    Restaged.state Restaged.started
    (fun {test} _ s _ _ h => Restaged.conditionsHold hconfig [test] s h) hreach
  exact acting.runAll actions (fun _ _ => trivial) s h

/-- A branch around actions runs them if its test holds, and else does nothing. -/
theorem runAll_branch (e : Engine) (reach : Reach) (test : Condition) (actions : List Action)
    (s : SessionState) (w : World) :
    Action.runAll e wiring reach [.branch test actions []] s w =
      if test.holds e.config.dispatch.unknownConditions s then
        Action.runAll e wiring reach actions s (e.conditionsHold [test] s w.started).2
      else (false, (e.conditionsHold [test] s w.started).2) := by
  rw [Action.runAll_singleton, Action.run_branch]
  simp only [Action.runAll]

/-- The branch itself is counted in one run only. -/
theorem entered (h : Restaged postponing u v) (test : Condition) :
    Restaged postponing u (e.conditionsHold [test] s v.started).2 :=
  conditionsHold_right (tally_right h fun _ => rfl) [test]

/-- Conditions hold if the one in the middle does and the others do. -/
theorem allHold_middle (policy : UnknownPolicy) (s : SessionState) (before after : List Condition)
    (test : Condition) :
    Condition.allHold policy s (before ++ test :: after) =
      (test.holds policy s && Condition.allHold policy s (before ++ after)) := by
  simp only [Condition.allHold, List.all_append, List.all_cons]
  rw [Bool.and_left_comm]

/-- Candidates that correspond are decided about alike, up to the reason why they do not fire. -/
theorem rule_postpones (hconfig : e'.config = e.config) (hserial : e'.serial = e.serial)
    (hreach : reach.Parallel wiring (Restaged postponing) reach')
    (hreceiver : wiring.receiver.IgnoresStaging postponing)
    (hc : c'.position = c.position ∧ c.event.Postpones c'.event) (s : SessionState)
    (payload : Payload) (h : Restaged postponing u v) :
    Compares Verdict.Postponed (Restaged postponing) (e.rule wiring reach s payload true c u)
      (e'.rule wiring reach' s payload true c' v) := by
  obtain ⟨position, event⟩ := c
  obtain ⟨position', event'⟩ := c'
  obtain ⟨hposition, hevent⟩ := hc
  cases hevent with
  | same =>
      refine rule hconfig hreach hreceiver hposition rfl rfl rfl true (by simp)
        (fun _ _ _ h => ?_) (fun hfalse => by cases hfalse) payload h
      exact runAll hconfig hserial hreach hreceiver event.actions s h
  | @branch before after test hconditions =>
      have hpolicy : e'.config.dispatch.unknownConditions =
          e.config.dispatch.unknownConditions := by rw [hconfig]
      refine rule hconfig hreach hreceiver hposition rfl rfl rfl
        (test.holds e.config.dispatch.unknownConditions s) ?_ (fun hholds _ _ h => ?_)
        (fun hfails _ _ h => ?_) payload h
      · show Condition.allHold _ s event.conditions = _
        rw [hconditions]
        exact allHold_middle _ s before after test
      · simp only [runAll_branch, hpolicy, hholds, if_true]
        exact runAll hconfig hserial hreach hreceiver event.actions s (entered h test)
      · simp only [runAll_branch, hpolicy, hfails, Bool.false_eq_true, if_false]
        exact ⟨trivial, entered h test⟩

/-- **Engines over catalogs of corresponding events are kin.** -/
theorem kin (hcatalog : e.catalog.Postpones e'.catalog) (hconfig : e'.config = e.config)
    (hserial : e'.serial = e.serial) (hreceiver : wiring.receiver.IgnoresStaging postponing) :
    Kin e e' wiring wiring
      ⟨fun _ => True, fun c c' => c'.position = c.position ∧ c.event.Postpones c'.event,
        postponing.Fits⟩ Verdict.Postponed (Restaged postponing) where
  limit := by rw [hconfig]
  state := Restaged.state
  depth := Restaged.depth
  stalled := Restaged.note .stalled
  opened h := Restaged.count { dispatches := 1 } (Restaged.entered (Restaged.dispatched true h))
  refused h := Restaged.count { depthLimitHits := 1 } (Restaged.dispatched false h)
  left := Restaged.left
  raised := trivial
  candidates {t} _ := by
    obtain ⟨events, events', hc, hc', hevents⟩ := hcatalog
    exact Catalog.forall₂_candidates Event.Postpones.indexes hevents hc hc' t
  id hc := Event.Postpones.indexes.id hc.2
  fired := Verdict.Postponed.fired
  rule hreach _ _ hc s payload _ _ h :=
    rule_postpones hconfig hserial hreach hreceiver hc s payload h
  runAll := by
    rintro k hreach _ actions rfl s u v h
    exact runAll hconfig hserial hreach hreceiver actions s h
  resumption _ _ hruns token := (Restaged.unaware hreceiver).follow hserial hruns token

/-- The pairing of runs over corresponding catalogs. -/
theorem fair : (postponing.pairing Catalog.Postpones).Fair Verdict.Postponed :=
  postponing.fair fun {_ _ _} hengines hreceiver =>
    kin hengines.1 hengines.2.1 hengines.2.2 hreceiver

end Postponed

/-- A world whose actions stay as they are. -/
theorem World.restage_id (w : World) (counters : Counters) (trace : List Moment) :
    w.restage id counters trace = { w with counters, trace } := by
  have htokens : w.tokens.map (·.rewrite id) = w.tokens := by
    refine List.map_id'' (fun t => ?_) w.tokens
    obtain ⟨request, answer, sequel, status⟩ := t
    cases sequel <;> rfl
  rw [World.restage, htokens]

/-- **It does not matter whether a condition is tested beforehand or in a branch.** Take known
conditions of events and put each of them, instead of among the conditions, into a conditional
action of its type and with its fields around all the actions of its event. No host can tell what
comes of it: whatever it does, and whenever it reads the journal, the same events fire, it gets the
same results and the same entries, and comes to the same world, with the same game, scenes and
journal. Reports agree on the events considered, fired and met in flight; they may differ in how
the other events were passed over: those that fail their conditions may be rejected by their
trigger, or be passed over as completed meanwhile, or have no effect. And the counts of the actions
run and the unknown types met may differ, and the trace. This holds of every receiver that does not
look behind the scenes, and so of every session. -/
theorem precondition_agrees_with_branch {events events' : List Authored.Event} {c : Catalog}
    {wiring : Wiring} {steps steps' : List HostStep}
    (hevents : List.Forall₂ Authored.Event.Postpones events events')
    (hc : Catalog.ofAuthored events = .ok c) (hreceiver : wiring.receiver.IgnoresStaging postponing)
    (hsteps : List.Forall₂ (HostStep.Fits (Move.Paired (postponing.pairing Catalog.Postpones)))
      steps steps')
    (config : EngineConfig) (state : SessionState) :
    ∃ c', Catalog.ofAuthored events' = .ok c' ∧
      let r := (Play.start c config wiring state).proceed steps
      let r' := (Play.start c' config wiring state).proceed steps'
      List.Forall₂ Answer.Postpones r.answers r'.answers ∧ r'.taken = r.taken ∧
      ∃ (actions unknowns : Nat) (trace : List Moment),
        r'.play.world = { r.play.world with
          counters := { r.play.world.counters with
            actionsExecuted := actions, unknownEvaluations := unknowns }
          trace } := by
  have hcompiled : List.Forall₂ Event.Postpones (events.map Event.ofAuthored)
      (events'.map Event.ofAuthored) := by
    refine List.forall₂_map_left_iff.2 (List.forall₂_map_right_iff.2 (hevents.imp fun _ _ h => ?_))
    exact .ofAuthored h
  obtain ⟨c', hc'⟩ := Catalog.exists_ofEvents Event.Postpones.indexes hcompiled hc
  have hpostpones : c.Postpones c' := ⟨_, _, hc, hc', hcompiled⟩
  obtain ⟨hanswers, htaken, hlast⟩ :=
    (postponing.start hpostpones config hreceiver state).compares Postponed.fair hsteps
  obtain ⟨counters, trace, ⟨actions, unknowns, rfl⟩, -, hworld⟩ := hlast.world
  refine ⟨c', hc', hanswers.imp fun _ _ hanswer => hanswer.postpones, htaken, actions, unknowns,
    trace, ?_⟩
  rw [hworld]
  exact World.restage_id _ _ _

/-! ## Passed over as completed -/

/-- An event that sets a milestone and raises another player action. -/
def summons : Authored.Event where
  id := "summons"
  trigger := { type := "player_action", action := some "call" }
  actions := [.mk { type := "set_milestone", milestone := some "called" } [] [] [],
    .mk { type := "player_action", action := some "answer" } [] [] []]
  repeatable := true

/-- An event that waits for that milestone and fires once. -/
def boon : Authored.Event where
  id := "boon"
  trigger := { type := "player_action" }
  conditions := [{ type := "milestone_set", milestone := some "called" }]
  actions := [.mk { type := "give_xp", xp := some 5 } [] [] []]

/-- The same event with the milestone in a conditional action. -/
def boonInBranch : Authored.Event := { boon with
  conditions := []
  actions := [.mk { type := "if_milestone_set", milestone := some "called" } boon.actions [] []] }

/-- Somebody calls. -/
def calling : List HostStep := [.move (.occur (.playerAction "call" none)), .drain]

/-- How often a report has a verdict. -/
def Answer.countOf (verdict : Verdict) : Answer → Nat
  | .report r => r.countOf verdict
  | _ => 0

theorem boon_postpones :
    List.Forall₂ Authored.Event.Postpones [summons, boon] [summons, boonInBranch] := by
  have hknown : (Condition.ofAuthored
      { type := "milestone_set", milestone := some "called" }).IsKnown := by
    have hcompiled : Condition.ofAuthored
        { type := "milestone_set", milestone := some "called" } = .milestoneSet "called" := by decide
    rw [hcompiled]
    simp [Condition.IsKnown]
  have hboon : boon.Postpones boonInBranch :=
    @Authored.Event.Postpones.branch boon [] [] _ _ rfl hknown (by decide +kernel) rfl []
  exact .cons (.same _) (.cons hboon .nil)

/-- The call raises an answer, and on this the boon is given. Then the call itself comes to the boon,
which was waiting for the milestone when the call began. With the milestone among its conditions it
is rejected by them, with the milestone in a branch it is passed over as completed. -/
theorem boon_is_rejected_or_completed : ∃ c c',
    Catalog.ofAuthored [summons, boon] = .ok c ∧
    Catalog.ofAuthored [summons, boonInBranch] = .ok c' ∧
    List.Forall₂ Authored.Event.Postpones [summons, boon] [summons, boonInBranch] ∧
    let r := (Play.start c {} ⟨.session .park, true⟩ {}).proceed calling
    let r' := (Play.start c' {} ⟨.session .park, true⟩ {}).proceed calling
    r.answers.map (Answer.countOf .completed) = [0] ∧
      r'.answers.map (Answer.countOf .completed) = [1] :=
  ⟨_, _, rfl, rfl, boon_postpones, by decide +kernel, by decide +kernel⟩

/-- Either way the boon is given once, and the game is the same. -/
theorem boon_is_given_once : ∃ c c',
    Catalog.ofAuthored [summons, boon] = .ok c ∧
    Catalog.ofAuthored [summons, boonInBranch] = .ok c' ∧
    let r := (Play.start c {} ⟨.session .park, true⟩ {}).proceed calling
    let r' := (Play.start c' {} ⟨.session .park, true⟩ {}).proceed calling
    r.play.world.game.progress.xp = 5 ∧ r'.play.world.game = r.play.world.game ∧
      r'.taken = r.taken := by
  have hc : Catalog.ofAuthored [summons, boon] = .ok _ := rfl
  have hcall : (Move.occur (.playerAction "call" none)).Paired
      (postponing.pairing Catalog.Postpones) (.occur (.playerAction "call" none)) :=
    .fits (.occur trivial)
  have hsteps : List.Forall₂ (HostStep.Fits (Move.Paired (postponing.pairing Catalog.Postpones)))
      calling calling := .cons (.move hcall) (.cons .drain .nil)
  obtain ⟨c', hc', -, htaken, actions, unknowns, trace, hworld⟩ :=
    @precondition_agrees_with_branch _ _ _ ⟨.session .park, true⟩ _ _ boon_postpones hc
      (Receiver.ignoresStaging_session postponing .park) hsteps {} {}
  refine ⟨_, c', hc, hc', by decide +kernel, ?_, htaken⟩
  rw [hworld]

end Narrative
