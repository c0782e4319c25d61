import Narrative.Proofs.Unaware

set_option autoImplicit false

/-!
# Two engines side by side

Two engines may differ in their catalogs and settings, and the two receivers in what they do, as
long as a `Comparison` says which trigger types, candidates and action lists of the one correspond
to which of the other. If deciding about corresponding candidates gives verdicts that correspond,
and corresponding lists come to the same, the engines are kin (`Kin`). The induction over the
candidates and over the clock is done for them once and ends in what the host calls (`Kin.handle`,
`Kin.execute`).

Twins are kin whose verdicts are the same (`Twins.kin`): they take the same way through the checks
that a candidate has to pass.
-/

namespace Narrative

/-! ## Reports that correspond -/

/-- Two runs gave answers that correspond and ended in related worlds. -/
structure Compares {α : Type} (A : α → α → Prop) (R : World → World → Prop) (x y : α × World) :
    Prop where
  answer : A x.1 y.1
  world : R x.2 y.2

/-- Two lists of rulings about the same ids with verdicts that correspond. -/
def Rulings (V : Verdict → Verdict → Prop) (xs ys : List (String × Verdict)) : Prop :=
  List.Forall₂ (fun x y => y.1 = x.1 ∧ V x.2 y.2) xs ys

/-- Two reports about one occurrence, with rulings that correspond. -/
structure Report.Compares (V : Verdict → Verdict → Prop) (r r' : Report) : Prop where
  triggerType : r'.triggerType = r.triggerType
  refused : r'.refused = r.refused
  rulings : Rulings V r.rulings r'.rulings

theorem Rulings.eq {xs ys : List (String × Verdict)} (h : Rulings Eq xs ys) : ys = xs := by
  induction h with
  | nil => rfl
  | cons hhead _ ih => rw [ih, Prod.ext hhead.1 hhead.2.symm]

/-- Reports whose verdicts are the same are the same. -/
theorem Report.Compares.eq {r r' : Report} (h : r.Compares Eq r') : r' = r := by
  obtain ⟨type, refused, rulings⟩ := r
  obtain ⟨type', refused', rulings'⟩ := r'
  have hrulings : rulings' = rulings := Rulings.eq h.rulings
  have htype : type' = type := h.triggerType
  have hrefused : refused' = refused := h.refused
  rw [hrulings, htype, hrefused]

/-- A verdict that is given in both or in neither is given about the same ids. -/
theorem Rulings.filter {V : Verdict → Verdict → Prop} {verdict : Verdict}
    (hverdict : ∀ {v v' : Verdict}, V v v' → (v' = verdict ↔ v = verdict))
    {xs ys : List (String × Verdict)} (h : Rulings V xs ys) :
    (ys.filter (·.2 == verdict)).map (·.1) = (xs.filter (·.2 == verdict)).map (·.1) := by
  induction h with
  | nil => rfl
  | @cons x y xs ys hhead _ ih =>
      have hsame : (y.2 == verdict) = (x.2 == verdict) := by
        rw [Bool.eq_iff_iff, beq_iff_eq, beq_iff_eq]
        exact hverdict hhead.2
      rw [List.filter_cons, List.filter_cons, hsame]
      split
      · rw [List.map_cons, List.map_cons, hhead.1, ih]
      · exact ih

namespace Report.Compares

variable {V : Verdict → Verdict → Prop} {r r' : Report} (h : r.Compares V r')

include h

/-- As many candidates are considered. -/
theorem considered : r'.considered = r.considered := (List.Forall₂.length_eq h.rulings).symm

/-- If what fires fires in both, the same events fired. -/
theorem fired (hfired : ∀ {v v' : Verdict}, V v v' → (v' = .fired ↔ v = .fired)) :
    r'.fired = r.fired :=
  Rulings.filter hfired h.rulings

/-- If what fires fires in both, something fired in both or in neither. -/
theorem anyFired (hfired : ∀ {v v' : Verdict}, V v v' → (v' = .fired ↔ v = .fired)) :
    r'.anyFired = r.anyFired := by
  rw [Report.anyFired, Report.anyFired, h.fired hfired]

/-- A verdict that is given in both or in neither is given as often. -/
theorem countOf {verdict : Verdict}
    (hverdict : ∀ {v v' : Verdict}, V v v' → (v' = verdict ↔ v = verdict)) :
    r'.countOf verdict = r.countOf verdict := by
  have hlength := congrArg List.length (Rulings.filter hverdict h.rulings)
  simpa only [Report.countOf, List.length_map, List.countP_eq_length_filter] using hlength

end Report.Compares

/-! ## Going through candidates -/

/-- Whether anything ran before need not be remembered: as long as nothing did, the record of now
is that of the snapshot, and to read it once more decides nothing. -/
theorem Engine.sweep_true (e : Engine) (wiring : Wiring) (k : Nat) {s : SessionState}
    (payload : Payload) {t : String} {cs : List Candidate}
    (hcs : ∀ c ∈ cs, c ∈ e.catalog.candidates t) {ran : Bool} {w : World}
    (hs : ran = false → w.game.state = s) :
    sweep (e.rule wiring (e.reach wiring k) s payload) ran cs w =
      sweep (e.rule wiring (e.reach wiring k) s payload) true cs w := by
  induction cs generalizing ran w with
  | nil => rfl
  | cons c rest ih =>
      have hrest : ∀ x ∈ rest, x ∈ e.catalog.candidates t :=
        fun x hx => hcs x (List.mem_cons_of_mem c hx)
      have hrule : e.rule wiring (e.reach wiring k) s payload ran c w =
          e.rule wiring (e.reach wiring k) s payload true c w := by
        cases ran with
        | true => rfl
        | false =>
            rw [rule, rule]
            split
            · rfl
            next hsnapshot =>
            -- looking at conditions and trigger leaves the game as it was
            have hlive : c.event.isCompleted (e.triggerMatches c.event.trigger payload s
                (e.conditionsHold c.event.conditions s w).2).2.game.state = false := by
              show c.event.isCompleted w.game.state = false
              rw [hs rfl]
              exact Bool.eq_false_iff.2 hsnapshot
            simp only [hlive, Bool.and_false]
      have law := Law.nothing e wiring w.inFlight
      have hgame := (law.rule (law.reach_lawful k) (hcs c List.mem_cons_self) (.inl rfl) hs
        payload).2
      rw [hrule] at hgame
      have hnext : (ran || (e.rule wiring (e.reach wiring k) s payload true c w).1.isExecuted) =
          false → (e.rule wiring (e.reach wiring k) s payload true c w).2.game.state = s := by
        intro hran
        obtain ⟨hbefore, hverdict⟩ := Bool.or_eq_false_iff.1 hran
        rw [hgame hverdict, hs hbefore]
      simp only [sweep, hrule, Bool.true_or, ih hrest hnext]

/-! ## Kin -/

/-- What of two engines is compared: the trigger types that are submitted, the pairs of candidates
that are decided about together, and the action lists that are run side by side. -/
structure Comparison where
  types : String → Prop
  pairs : Candidate → Candidate → Prop
  fits : List Action → List Action → Prop

/-- What two engines under two wirings and a relation between worlds have to keep to for the runs
of the engines to correspond from related worlds on. Verdicts about corresponding candidates are
related by `V`, which agrees on what fires. -/
structure Kin (e e' : Engine) (wiring wiring' : Wiring) (cmp : Comparison)
    (V : Verdict → Verdict → Prop) (R : World → World → Prop) : Prop where
  limit : e'.config.dispatch.maxDepth = e.config.dispatch.maxDepth
  state : ∀ {u v : World}, R u v → v.game.state = u.game.state
  depth : ∀ {u v : World}, R u v → v.depth = u.depth
  stalled : Carries R (·.note .stalled) (·.note .stalled)
  opened : Carries R Engine.openDispatch Engine.openDispatch
  refused : Carries R Engine.refuseDispatch Engine.refuseDispatch
  left : Carries R World.leave World.leave
  raised : cmp.types Engine.raisedType
  candidates : ∀ {t : String}, cmp.types t →
    List.Forall₂ cmp.pairs (e.catalog.candidates t) (e'.catalog.candidates t)
  id : ∀ {c c' : Candidate}, cmp.pairs c c' → c'.event.id = c.event.id
  fired : ∀ {v v' : Verdict}, V v v' → (v' = .fired ↔ v = .fired)
  rule : ∀ {k : Nat}, (e.reach wiring k).Parallel wiring R (e'.reach wiring' k) →
    ∀ {c c' : Candidate}, cmp.pairs c c' → ∀ (s : SessionState) (payload : Payload)
      {u v : World}, R u v →
        Compares V R (e.rule wiring (e.reach wiring k) s payload true c u)
          (e'.rule wiring' (e'.reach wiring' k) s payload true c' v)
  runAll : ∀ {k : Nat}, (e.reach wiring k).Parallel wiring R (e'.reach wiring' k) →
    ∀ {actions actions' : List Action}, cmp.fits actions actions' →
      ∀ (s : SessionState) {u v : World}, R u v →
        Matches R (Action.runAll e wiring (e.reach wiring k) actions s u)
          (Action.runAll e' wiring' (e'.reach wiring' k) actions' s v)
  resumption : ¬ wiring.receiver.IsDirect → ∀ {k : Nat},
    (∀ {actions actions' : List Action}, cmp.fits actions actions' →
      Carries R (e.continueWith wiring (e.reach wiring k) actions)
        (e'.continueWith wiring' (e'.reach wiring' k) actions')) →
    ∀ token, Carries R (·.resume (e.follow wiring (e.reach wiring k)) token)
      (·.resume (e'.follow wiring' (e'.reach wiring' k)) token)

namespace Kin

variable {e e' : Engine} {wiring wiring' : Wiring} {cmp : Comparison}
variable {V : Verdict → Verdict → Prop} {R : World → World → Prop} {k : Nat} {u v : World}
variable (kin : Kin e e' wiring wiring' cmp V R)

include kin

section Dispatch

variable (hreach : (e.reach wiring k).Parallel wiring R (e'.reach wiring' k))

include hreach

/-- What follows a scene comes to the same. -/
theorem continueWith {actions actions' : List Action} (hfits : cmp.fits actions actions') :
    Carries R (e.continueWith wiring (e.reach wiring k) actions)
      (e'.continueWith wiring' (e'.reach wiring' k) actions') := by
  intro u v h
  rw [Engine.continueWith, Engine.continueWith, kin.state h]
  exact (kin.runAll hreach hfits _ h).world

/-- The candidates of two lists are decided about alike. -/
theorem sweep {cs cs' : List Candidate} (hcs : List.Forall₂ cmp.pairs cs cs') (s : SessionState)
    (payload : Payload) (h : R u v) :
    Compares (Rulings V) R
      (Engine.sweep (e.rule wiring (e.reach wiring k) s payload) true cs u)
      (Engine.sweep (e'.rule wiring' (e'.reach wiring' k) s payload) true cs' v) := by
  induction hcs generalizing u v with
  | nil => exact ⟨.nil, h⟩
  | cons hc _ ih =>
      have hrule := kin.rule hreach hc s payload h
      have hrest := ih hrule.world
      exact ⟨.cons ⟨kin.id hc, hrule.answer⟩ hrest.answer, hrest.world⟩

/-- An occurrence is answered alike. -/
theorem dispatch {t : String} (ht : cmp.types t) (payload : Payload) (h : R u v) :
    Compares (Report.Compares V) R (e.dispatch wiring (e.reach wiring k) t payload u)
      (e'.dispatch wiring' (e'.reach wiring' k) t payload v) := by
  rw [Engine.dispatch, Engine.dispatch, kin.depth h, kin.limit]
  split
  · exact ⟨⟨rfl, rfl, .nil⟩, kin.refused h⟩
  · have hopen := kin.opened h
    have hsweep := kin.sweep hreach (kin.candidates ht) (Engine.openDispatch u).game.state
      payload hopen
    have hu := Engine.sweep_true e wiring k payload (fun _ hc => hc) (t := t)
      (w := Engine.openDispatch u) (fun (_ : false = false) => rfl)
    have hv := Engine.sweep_true e' wiring' k payload (fun _ hc => hc) (t := t)
      (w := Engine.openDispatch v) (fun (_ : false = false) => kin.state hopen)
    simp only [kin.state hopen, hu, hv]
    exact ⟨⟨rfl, rfl, hsweep.answer⟩, kin.left hsweep.world⟩

end Dispatch

/-! ## The clock -/

/-- The ways out come to the same, however many nested calls they leave room for. -/
theorem reach (k : Nat) : (e.reach wiring k).Parallel wiring R (e'.reach wiring' k) := by
  induction k with
  | zero => exact ⟨fun _ _ _ h => ⟨rfl, kin.stalled h⟩, fun _ _ {_ _} h => kin.stalled h⟩
  | succ k ih =>
      constructor
      · intro payload u v h
        have hreport := kin.dispatch ih kin.raised payload h
        exact ⟨hreport.answer.anyFired kin.fired, hreport.world⟩
      · intro hfree token u v h
        exact kin.resumption hfree (fun hfits => kin.continueWith ih hfits) token h

section Clock

variable (hclock : e'.clock wiring' = e.clock wiring)

include hclock

/-- What follows a scene that the host ends comes to the same. -/
theorem continueWith_outlets {actions actions' : List Action} (hfits : cmp.fits actions actions') :
    Carries R (e.continueWith wiring (e.outlets wiring) actions)
      (e'.continueWith wiring' (e'.outlets wiring') actions') := by
  rw [Engine.outlets, Engine.outlets, hclock]
  exact kin.continueWith (kin.reach _) hfits

/-- An occurrence that the host reports is answered alike. -/
theorem handle {t : String} (ht : cmp.types t) (payload : Payload) (h : R u v) :
    Compares (Report.Compares V) R (e.handle wiring t payload u)
      (e'.handle wiring' t payload v) := by
  rw [Engine.handle, Engine.handle, Engine.outlets, Engine.outlets, hclock]
  exact kin.dispatch (kin.reach _) ht payload h

/-- Actions that no event executes come to the same. -/
theorem execute {actions actions' : List Action} (hfits : cmp.fits actions actions')
    (s : SessionState) (h : R u v) :
    Matches R (e.execute wiring actions s u) (e'.execute wiring' actions' s v) := by
  rw [Engine.execute, Engine.execute, Engine.outlets, Engine.outlets, hclock]
  exact kin.runAll (kin.reach _) hfits s h

theorem perform {actions actions' : List Action} (hfits : cmp.fits actions actions') (h : R u v) :
    Matches R (e.perform wiring actions u) (e'.perform wiring' actions' v) := by
  rw [Engine.perform, Engine.perform, kin.state h]
  exact kin.execute hclock hfits _ h

end Clock

end Kin

/-! ## Twins -/

/-- What two engines under two wirings and a relation between worlds have to keep to for the runs
of the engines to come to the same from related worlds on. -/
structure Twins (e e' : Engine) (wiring wiring' : Wiring) (cmp : Comparison)
    (R : World → World → Prop) : Prop where
  limit : e'.config.dispatch.maxDepth = e.config.dispatch.maxDepth
  state : ∀ {u v : World}, R u v → v.game.state = u.game.state
  depth : ∀ {u v : World}, R u v → v.depth = u.depth
  counted : ∀ more : Counters, more.unknownEvaluations = 0 →
    Carries R (·.count (·.plus more)) (·.count (·.plus more))
  stalled : Carries R (·.note .stalled) (·.note .stalled)
  dispatched : ∀ admitted : Bool,
    Carries R (fun w => w.note (.dispatched w.depth w.inFlight admitted))
      (fun w => w.note (.dispatched w.depth w.inFlight admitted))
  entered : Carries R World.enter World.enter
  left : Carries R World.leave World.leave
  raised : cmp.types Engine.raisedType
  candidates : ∀ {t : String}, cmp.types t →
    List.Forall₂ cmp.pairs (e.catalog.candidates t) (e'.catalog.candidates t)
  id : ∀ {c c' : Candidate}, cmp.pairs c c' → c'.event.id = c.event.id
  repeatable : ∀ {c c' : Candidate}, cmp.pairs c c' → c'.event.repeatable = c.event.repeatable
  actions : ∀ {c c' : Candidate}, cmp.pairs c c' → cmp.fits c.event.actions c'.event.actions
  conditions : ∀ {c c' : Candidate}, cmp.pairs c c' → ∀ (s : SessionState) {u v : World}, R u v →
    Matches R (e.conditionsHold c.event.conditions s u) (e'.conditionsHold c'.event.conditions s v)
  trigger : ∀ {c c' : Candidate}, cmp.pairs c c' → ∀ (p : Payload) (s : SessionState)
    {u v : World}, R u v →
    Matches R (e.triggerMatches c.event.trigger p s u) (e'.triggerMatches c'.event.trigger p s v)
  flying : ∀ {c c' : Candidate}, cmp.pairs c c' → ∀ {u v : World}, R u v →
    v.inFlight.contains c'.position = u.inFlight.contains c.position
  begun : ∀ {c c' : Candidate}, cmp.pairs c c' → Carries R (Engine.begin c) (Engine.begin c')
  landed : ∀ {c c' : Candidate}, cmp.pairs c c' →
    Carries R (·.land c.position) (·.land c'.position)
  recorded : ∀ event : Event, Carries R (·.changeGame event.record) (·.changeGame event.record)
  call : ∀ {k : Nat}, (e.reach wiring k).Parallel wiring R (e'.reach wiring' k) →
    ∀ (x : Effect) {u v : World}, R u v →
      Matches R (u.perform wiring (e.reach wiring k).revive x)
        (v.perform wiring' (e'.reach wiring' k).revive x)
  runAll : ∀ {k : Nat}, (e.reach wiring k).Parallel wiring R (e'.reach wiring' k) →
    ∀ {actions actions' : List Action}, cmp.fits actions actions' →
      ∀ (s : SessionState) {u v : World}, R u v →
        Matches R (Action.runAll e wiring (e.reach wiring k) actions s u)
          (Action.runAll e' wiring' (e'.reach wiring' k) actions' s v)
  resumption : ¬ wiring.receiver.IsDirect → ∀ {k : Nat},
    (∀ {actions actions' : List Action}, cmp.fits actions actions' →
      Carries R (e.continueWith wiring (e.reach wiring k) actions)
        (e'.continueWith wiring' (e'.reach wiring' k) actions')) →
    ∀ token, Carries R (·.resume (e.follow wiring (e.reach wiring k)) token)
      (·.resume (e'.follow wiring' (e'.reach wiring' k)) token)

/-! What an event is recorded as depends on its id and on whether it may fire again. -/

theorem Event.hasId_congr {a b : Event} (hid : b.id = a.id) : b.hasId = a.hasId := by
  rw [Event.hasId, Event.hasId, hid]

theorem Event.isOnce_congr {a b : Event} (hid : b.id = a.id)
    (hrepeatable : b.repeatable = a.repeatable) : b.isOnce = a.isOnce := by
  simp only [Event.isOnce, Event.hasId_congr hid, hrepeatable]

theorem Event.record_congr {a b : Event} (hid : b.id = a.id)
    (hrepeatable : b.repeatable = a.repeatable) : b.record = a.record := by
  funext g
  simp only [Event.record, Event.isOnce_congr hid hrepeatable, hid]

theorem Event.isCompleted_congr {a b : Event} (hid : b.id = a.id)
    (hrepeatable : b.repeatable = a.repeatable) : b.isCompleted = a.isCompleted := by
  funext s
  simp only [Event.isCompleted, Event.isOnce_congr hid hrepeatable, hid]

/-- To announce an event comes to the same if recording it and the call for it do. -/
theorem Engine.announce_carries {wiring wiring' : Wiring} {R : World → World → Prop}
    {revive revive' : Nat → World → World} {event event' : Event} (hid : event'.id = event.id)
    (hrepeatable : event'.repeatable = event.repeatable)
    (hrecorded : Carries R (·.changeGame event.record) (·.changeGame event.record))
    (hcall : ∀ (x : Effect) {u v : World}, R u v →
      Matches R (u.perform wiring revive x) (v.perform wiring' revive' x))
    (hcounted : Carries R (·.count (·.plus { eventsFired := 1 }))
      (·.count (·.plus { eventsFired := 1 }))) :
    Carries R (announce wiring revive event) (announce wiring' revive' event') := by
  intro u v h
  have hworld := hrecorded h
  unfold announce
  simp only [Event.record_congr hid hrepeatable, Event.hasId_congr hid, hid]
  refine hcounted ?_
  split
  · exact (hcall _ hworld).world
  · exact hworld

namespace Twins

variable {e e' : Engine} {wiring wiring' : Wiring} {cmp : Comparison}
variable {R : World → World → Prop} {k : Nat} {u v : World} {c c' : Candidate}
variable (twins : Twins e e' wiring wiring' cmp R)

include twins

theorem openDispatch : Carries R Engine.openDispatch Engine.openDispatch := fun h =>
  twins.counted { dispatches := 1 } rfl (twins.entered (twins.dispatched true h))

theorem refuseDispatch : Carries R Engine.refuseDispatch Engine.refuseDispatch := fun h =>
  twins.counted { depthLimitHits := 1 } rfl (twins.dispatched false h)

section Dispatch

variable (hreach : (e.reach wiring k).Parallel wiring R (e'.reach wiring' k))

include hreach

/-! ## Dispatching -/

theorem announce (hc : cmp.pairs c c') :
    Carries R (Engine.announce wiring (e.reach wiring k).revive c.event)
      (Engine.announce wiring' (e'.reach wiring' k).revive c'.event) := by
  exact Engine.announce_carries (twins.id hc) (twins.repeatable hc) (twins.recorded c.event)
    (twins.call hreach) (twins.counted { eventsFired := 1 } rfl)

theorem fly (hc : cmp.pairs c c') (s : SessionState) (h : R u v) :
    Matches R (e.fly wiring (e.reach wiring k) s c u)
      (e'.fly wiring' (e'.reach wiring' k) s c' v) := by
  have hrun := twins.runAll hreach (twins.actions hc) s (twins.begun hc h)
  exact ⟨hrun.answer, twins.landed hc hrun.world⟩

/-- Deciding about a pair of candidates comes to the same. -/
theorem rule (hc : cmp.pairs c c') (s : SessionState) (payload : Payload) (ran : Bool)
    (h : R u v) :
    Matches R (e.rule wiring (e.reach wiring k) s payload ran c u)
      (e'.rule wiring' (e'.reach wiring' k) s payload ran c' v) := by
  have hholds := twins.conditions hc s h
  have hmatch := twins.trigger hc payload s hholds.world
  have hfly := twins.fly hreach hc s hmatch.world
  rw [Engine.rule, Engine.rule]
  simp only [Event.isCompleted_congr (twins.id hc) (twins.repeatable hc), twins.flying hc h,
    hholds.answer, hmatch.answer, twins.state hmatch.world, hfly.answer]
  -- both runs take the same way through the checks
  split
  · exact ⟨rfl, h⟩
  split
  · exact ⟨rfl, twins.counted { cyclesSkipped := 1 } rfl h⟩
  split
  · exact ⟨rfl, hholds.world⟩
  split
  · exact ⟨rfl, hmatch.world⟩
  split
  · exact ⟨rfl, hmatch.world⟩
  split
  · exact ⟨rfl, twins.announce hreach hc hfly.world⟩
  · exact ⟨rfl, hfly.world⟩

end Dispatch

/-- **Twins are kin** whose verdicts are the same. -/
theorem kin : Kin e e' wiring wiring' cmp Eq R where
  limit := twins.limit
  state := twins.state
  depth := twins.depth
  stalled := twins.stalled
  opened := twins.openDispatch
  refused := twins.refuseDispatch
  left := twins.left
  raised := twins.raised
  candidates := twins.candidates
  id := twins.id
  fired hv := by rw [hv]
  rule hreach _ _ hc s payload _ _ h := by
    have hrule := twins.rule hreach hc s payload true h
    exact ⟨hrule.answer.symm, hrule.world⟩
  runAll := twins.runAll
  resumption := twins.resumption

end Twins

end Narrative
