import Narrative.Proofs.Chronicle

set_option autoImplicit false

/-!
# Which candidates of a dispatch are executed

A dispatch decides about its candidates one after the other, while the actions of earlier
ones change the world and start dispatches of their own. What a candidate needs is read
from the snapshot and from the list of flights at the start (`Engine.Eligible`); of what
happens later only one thing counts, that its event is recorded before its turn
(`snapshot_decides_candidates`). Such an event was fired by a dispatch inside an earlier
candidate.

The decisions of a dispatch are its turns (`Engine.turns`), each with the world before
and after it.
-/

namespace Narrative

/-- What speaks for a candidate in a snapshot and a list of flights. -/
structure Engine.Eligible (e : Engine) (s : SessionState) (inFlight : List Nat)
    (payload : Payload) (c : Candidate) : Prop where
  fresh : c.event.isCompleted s = false
  grounded : c.position ∉ inFlight
  conditions : ∀ x ∈ c.event.conditions, x.holds e.config.dispatch.unknownConditions s = true
  trigger : c.event.trigger.isMatch e.config.dispatch.unknownTriggers payload s = true

/-- The decision about a candidate, with the world before and after it. -/
structure Turn where
  candidate : Candidate
  before : World
  verdict : Verdict
  after : World

namespace Turn

/-- The actions of the candidate are begun, before anything else happens. -/
def Began (t : Turn) : Prop :=
  ⟨.began t.candidate, t.before.game, t.before.depth⟩ :: t.before.trace <:+ t.after.trace

/-- Nothing happens, but for what is counted. -/
def Passed (t : Turn) : Prop := t.after.game = t.before.game ∧ t.after.trace = t.before.trace

/-- An event is fired in a turn by a dispatch inside it, and must not fire again. -/
def Records (t : Turn) (c : Candidate) : Prop :=
  c.event.isOnce = true ∧ FiredInside c (t.before.since t.after)

end Turn

namespace Engine

/-- The turns of candidates, one after the other. -/
def turnsFrom (rule : Bool → Candidate → World → Verdict × World) :
    Bool → List Candidate → World → List Turn
  | _, [], _ => []
  | ran, c :: rest, w =>
      let (verdict, v) := rule ran c w
      ⟨c, w, verdict, v⟩ :: turnsFrom rule (ran || verdict.isExecuted) rest v

/-- The turns of a dispatch that is let in. -/
def turns (e : Engine) (wiring : Wiring) (reach : Reach) (triggerType : String)
    (payload : Payload) (w : World) : List Turn :=
  turnsFrom (e.rule wiring reach w.game.state payload) false (e.catalog.candidates triggerType)
    (openDispatch w)

/-- The world once the conditions and the trigger of a candidate were looked at. -/
def checked (e : Engine) (s : SessionState) (payload : Payload) (c : Candidate) (w : World) :
    World :=
  (e.triggerMatches c.event.trigger payload s (e.conditionsHold c.event.conditions s w).2).2

/-- Each candidate has its turn, in order. -/
theorem map_candidate_turnsFrom (rule : Bool → Candidate → World → Verdict × World) (ran : Bool)
    (cs : List Candidate) (w : World) :
    (turnsFrom rule ran cs w).map (·.candidate) = cs := by
  induction cs generalizing ran w with
  | nil => rfl
  | cons c rest ih => exact congrArg (c :: ·) (ih _ _)

/-- The sweep over the candidates goes through their turns. -/
theorem sweep_eq (rule : Bool → Candidate → World → Verdict × World) (ran : Bool)
    (cs : List Candidate) (w : World) :
    sweep rule ran cs w =
      ((turnsFrom rule ran cs w).map fun t => (t.candidate.event.id, t.verdict),
        ((turnsFrom rule ran cs w).getLast?.map (·.after)).getD w) := by
  induction cs generalizing ran w with
  | nil => rfl
  | cons c rest ih =>
      simp only [sweep, turnsFrom, ih, List.map_cons, List.getLast?_cons]
      cases (turnsFrom rule _ rest _).getLast? <;> rfl

/-- A dispatch that is let in goes through its turns. -/
theorem dispatch_eq_turns (e : Engine) (wiring : Wiring) (reach : Reach) (triggerType : String)
    (payload : Payload) {w : World} (hlimit : ¬ e.config.dispatch.maxDepth ≤ w.depth) :
    e.dispatch wiring reach triggerType payload w =
      (⟨triggerType, false, (e.turns wiring reach triggerType payload w).map
          fun t => (t.candidate.event.id, t.verdict)⟩,
        (((e.turns wiring reach triggerType payload w).getLast?.map (·.after)).getD
          (openDispatch w)).leave) := by
  rw [dispatch, if_neg hlimit]
  simp only [sweep_eq]
  rfl

/-- The candidates of the turns are the listeners of the type. -/
theorem map_candidate_turns {events : List Event} {e : Engine}
    (hcatalog : Catalog.ofEvents events = .ok e.catalog) (wiring : Wiring) (reach : Reach)
    (triggerType : String) (payload : Payload) (w : World) :
    (e.turns wiring reach triggerType payload w).map (·.candidate) =
      Catalog.listeners (Text.typeKey triggerType) 0 events := by
  rw [turns, map_candidate_turnsFrom, Catalog.candidates_ofEvents hcatalog]

/-- The ways on which a dispatch is through with a candidate in a world, with the verdict of each. The
first four are decided by the snapshot and the list of flights. The others are left to candidates
that are eligible: one may be recorded by then, and else it is executed, with or without
effect. -/
inductive Exit (e : Engine) (wiring : Wiring) (reach : Reach) (s : SessionState)
    (payload : Payload) (c : Candidate) (w : World) : Verdict → Prop where
  | completed (h : c.event.isCompleted s = true) : Exit e wiring reach s payload c w .completed
  | inFlight (hfresh : c.event.isCompleted s = false) (h : c.position ∈ w.inFlight) :
      Exit e wiring reach s payload c w .inFlight
  | conditions (hfresh : c.event.isCompleted s = false) (hgrounded : c.position ∉ w.inFlight)
      {x : Condition} (hx : x ∈ c.event.conditions)
      (h : x.holds e.config.dispatch.unknownConditions s = false) :
      Exit e wiring reach s payload c w .failsConditions
  | trigger (hfresh : c.event.isCompleted s = false) (hgrounded : c.position ∉ w.inFlight)
      (hconditions : ∀ x ∈ c.event.conditions,
        x.holds e.config.dispatch.unknownConditions s = true)
      (h : c.event.trigger.isMatch e.config.dispatch.unknownTriggers payload s = false) :
      Exit e wiring reach s payload c w .failsTrigger
  | recorded (heligible : e.Eligible s w.inFlight payload c)
      (h : c.event.isCompleted w.game.state = true) : Exit e wiring reach s payload c w .completed
  | executed (took : Bool) (heligible : e.Eligible s w.inFlight payload c)
      (hlive : c.event.isCompleted w.game.state = false)
      (h : (e.fly wiring reach s c (e.checked s payload c w)).1 = took) :
      Exit e wiring reach s payload c w (if took then .fired else .noEffect)

/-- An eligible candidate that is passed over is recorded by then. -/
theorem Exit.recorded_of_eligible {e : Engine} {wiring : Wiring} {reach : Reach} {s : SessionState}
    {payload : Payload} {c : Candidate} {w : World} {verdict : Verdict}
    (h : e.Exit wiring reach s payload c w verdict) (hverdict : verdict.isExecuted = false)
    (heligible : e.Eligible s w.inFlight payload c) :
    c.event.isCompleted w.game.state = true := by
  cases h with
  | completed h =>
      rw [heligible.fresh] at h
      cases h
  | inFlight _ h => exact absurd h heligible.grounded
  | conditions _ _ hx h =>
      rw [heligible.conditions _ hx] at h
      cases h
  | trigger _ _ _ h =>
      rw [heligible.trigger] at h
      cases h
  | recorded _ h => exact h
  | executed took => cases took <;> cases hverdict

/-- What becomes of a candidate in a world: it is passed over, or executed and then announced if it
took effect. -/
inductive Decides (e : Engine) (wiring : Wiring) (reach : Reach) (s : SessionState)
    (payload : Payload) (ran : Bool) (c : Candidate) (w : World) : Verdict → World → Prop where
  | passed {verdict : Verdict} {v : World} (hverdict : verdict.isExecuted = false)
      (hgame : v.game = w.game) (htrace : v.trace = w.trace)
      (h : e.Exit wiring reach s payload c w verdict) :
      Decides e wiring reach s payload ran c w verdict v
  | executed {took : Bool} {v : World} (heligible : e.Eligible s w.inFlight payload c)
      (hlive : ran = true → c.event.isCompleted w.game.state = false)
      (hfly : e.fly wiring reach s c (e.checked s payload c w) = (took, v)) :
      Decides e wiring reach s payload ran c w (if took then .fired else .noEffect)
        (if took then announce wiring reach.revive c.event v else v)

theorem decides (e : Engine) (wiring : Wiring) (reach : Reach) (s : SessionState)
    (payload : Payload) (ran : Bool) (c : Candidate) (w : World) :
    Decides e wiring reach s payload ran c w (e.rule wiring reach s payload ran c w).1
      (e.rule wiring reach s payload ran c w).2 := by
  rw [rule]
  split
  · next h => exact .passed rfl rfl rfl (.completed h)
  next hcompleted =>
  have hfresh := Bool.eq_false_iff.2 hcompleted
  split
  · next h => exact .passed rfl rfl rfl (.inFlight hfresh (List.contains_iff_mem.1 h))
  next hflying =>
  have hgrounded : c.position ∉ w.inFlight := fun h => hflying (List.contains_iff_mem.2 h)
  simp only
  have hholds : (e.conditionsHold c.event.conditions s w).1 = true ↔
      ∀ x ∈ c.event.conditions, x.holds e.config.dispatch.unknownConditions s = true :=
    List.all_eq_true
  split
  · next h =>
      rw [Bool.not_eq_true'] at h
      obtain ⟨x, hx, hfails⟩ := List.all_eq_false.1 h
      exact .passed rfl rfl rfl (.conditions hfresh hgrounded hx (Bool.eq_false_iff.2 hfails))
  next hconditions =>
  rw [Bool.not_eq_true', Bool.not_eq_false] at hconditions
  split
  · next h =>
      rw [Bool.not_eq_true'] at h
      exact .passed rfl rfl rfl (.trigger hfresh hgrounded (hholds.1 hconditions) h)
  next htrigger =>
  rw [Bool.not_eq_true', Bool.not_eq_false] at htrigger
  have heligible : e.Eligible s w.inFlight payload c :=
    ⟨hfresh, hgrounded, hholds.1 hconditions, htrigger⟩
  split
  · next h => exact .passed rfl rfl rfl (.recorded heligible (Bool.and_eq_true_iff.1 h).2)
  next hrecorded =>
  have hlive : ran = true → c.event.isCompleted w.game.state = false := by
    rintro rfl
    exact Bool.eq_false_iff.2 fun h => hrecorded (Bool.and_eq_true_iff.2 ⟨rfl, h⟩)
  have hexecuted : Decides e wiring reach s payload ran c w _ _ :=
    .executed heligible hlive (Prod.eta (e.fly wiring reach s c (e.checked s payload c w))).symm
  -- either way the candidate was executed
  unfold checked at hexecuted
  split
  · next htook => rwa [htook] at hexecuted
  · next htook => rwa [Bool.eq_false_iff.2 htook] at hexecuted

end Engine

/-! ## Turns -/

section Turns

variable {e : Engine} {wiring : Wiring} {k : Nat} {s : SessionState} {payload : Payload}

/-- A turn in which a candidate is decided about. As long as no actions were executed, the game is
that of the snapshot. -/
structure Turn.Decided (e : Engine) (wiring : Wiring) (k : Nat) (s : SessionState)
    (payload : Payload) (ran : Bool) (t : Turn) : Prop where
  decides : e.Decides wiring (e.reach wiring k) s payload ran t.candidate t.before t.verdict t.after
  snapshot : ran = false → t.before.game.state = s

/-- Each turn finds the flights of the start, and the game of the snapshot as long as no actions
were executed. -/
theorem Turn.decided_of_mem {triggerType : String} {ran : Bool} {cs : List Candidate} {w : World}
    (hcs : ∀ c ∈ cs, c ∈ e.catalog.candidates triggerType)
    (hs : ran = false → w.game.state = s) {t : Turn}
    (ht : t ∈ Engine.turnsFrom (e.rule wiring (e.reach wiring k) s payload) ran cs w) :
    t.before.inFlight = w.inFlight ∧ ∃ ran, t.Decided e wiring k s payload ran := by
  induction cs generalizing ran w with
  | nil => cases ht
  | cons c rest ih =>
      have law := Law.nothing e wiring w.inFlight
      have hc := hcs c List.mem_cons_self
      obtain ⟨hrule, hgame⟩ := law.rule (law.reach_lawful k) hc (.inl rfl) hs payload
      simp only [Engine.turnsFrom, List.mem_cons] at ht
      rcases ht with rfl | ht
      · exact ⟨rfl, ran, e.decides wiring _ s payload ran c w, hs⟩
      -- a turn leaves the flights alone, and the game as well unless actions are executed
      · have hrest := ih (fun x hx => hcs x (List.mem_cons_of_mem c hx)) (fun hran => ?_) ht
        · rwa [hrule.steady.inFlight] at hrest
        · obtain ⟨hbefore, hverdict⟩ := Bool.or_eq_false_iff.1 hran
          rw [hgame hverdict, hs hbefore]

/-- Each turn of a dispatch finds the flights of the start. -/
theorem Turn.decided_of_mem_turns {triggerType : String} {w : World} {t : Turn}
    (ht : t ∈ e.turns wiring (e.reach wiring k) triggerType payload w) :
    t.before.inFlight = w.inFlight ∧ ∃ ran, t.Decided e wiring k w.game.state payload ran := by
  have hopen : false = false → (Engine.openDispatch w).game.state = w.game.state := fun _ => rfl
  exact Turn.decided_of_mem (fun _ hc => hc) hopen ht

variable {ran : Bool} {t : Turn}

/-- A candidate that is executed is not recorded at that time: as long as no actions were executed
the snapshot is the game of now, and after that the record is read again. -/
theorem Engine.not_recorded {c : Candidate} {w : World} (hs : ran = false → w.game.state = s)
    (heligible : e.Eligible s w.inFlight payload c)
    (hlive : ran = true → c.event.isCompleted w.game.state = false) :
    c.event.isCompleted w.game.state = false := by
  cases ran with
  | false => exact hs rfl ▸ heligible.fresh
  | true => exact hlive rfl

/-- A flight is the run of its actions, landed. -/
theorem Engine.eq_land_of_fly {c : Candidate} {w v : World} {took : Bool}
    (hfly : e.fly wiring (e.reach wiring k) s c (e.checked s payload c w) = (took, v)) :
    v = (Action.runAll e wiring (e.reach wiring k) c.event.actions s
      (Engine.begin c (e.checked s payload c w))).2.land c.position :=
  (congrArg Prod.snd hfly).symm

/-- When a candidate is executed, its actions are begun first. -/
theorem Turn.began_of_fly {c : Candidate} {w v : World} {took : Bool}
    (hfly : e.fly wiring (e.reach wiring k) s c (e.checked s payload c w) = (took, v)) :
    ⟨.began c, w.game, w.depth⟩ :: w.trace <:+
      (if took then Engine.announce wiring (e.reach wiring k).revive c.event v else v).trace := by
  have law := Law.nothing e wiring w.inFlight
  have hreach := law.reach_lawful k
  have hrun := (law.runAll hreach c.event.actions s
    (Engine.begin c (e.checked s payload c w))).steady.trace
  have hbegan : ⟨.began c, w.game, w.depth⟩ :: w.trace <:+ v.trace := Engine.eq_land_of_fly hfly ▸ hrun
  split
  · exact hbegan.trans (Steady.announce hreach.revive.steady c.event v).trace
  · exact hbegan

/-- What decides a turn. -/
theorem Turn.Decided.began_iff (h : t.Decided e wiring k s payload ran) :
    (t.Began ↔ e.Eligible s t.before.inFlight payload t.candidate ∧
      t.candidate.event.isCompleted t.before.game.state = false) ∧
    (t.verdict.isExecuted = true ↔ t.Began) ∧
    (¬ t.Began → t.Passed) ∧
    (t.verdict = .fired ↔ t.Began ∧ (e.fly wiring (e.reach wiring k) s t.candidate
      (e.checked s payload t.candidate t.before)).1 = true) := by
  obtain ⟨hdecides, hs⟩ := h
  obtain ⟨c, w, verdict, v⟩ := t
  simp only at hdecides hs ⊢
  cases hdecides with
  | passed hverdict hgame htrace hexit =>
      have hidle : ¬ (Turn.mk c w verdict v).Began := by
        intro hbegan
        have hlength := hbegan.length_le
        simp only [htrace, List.length_cons] at hlength
        omega
      refine ⟨iff_of_false hidle ?_, iff_of_false (by simp [hverdict]) hidle,
        fun _ => ⟨hgame, htrace⟩, iff_of_false ?_ fun h => hidle h.1⟩
      · rintro ⟨heligible, hlive⟩
        rw [hexit.recorded_of_eligible hverdict heligible] at hlive
        cases hlive
      · rintro rfl
        cases hverdict
  | @executed took v heligible hlive hfly =>
      have hbegan := Turn.began_of_fly hfly
      have hnow : c.event.isCompleted w.game.state = false := by
        cases ran with
        | false => exact hs rfl ▸ heligible.fresh
        | true => exact hlive rfl
      refine ⟨iff_of_true hbegan ⟨heligible, hnow⟩, iff_of_true ?_ hbegan,
        fun hidle => absurd hbegan hidle, ?_⟩
      · cases took <;> rfl
      · rw [hfly]
        cases took with
        | false =>
            exact iff_of_false (fun h => Verdict.noConfusion h) (fun h => Bool.noConfusion h.2)
        | true => exact iff_of_true rfl ⟨hbegan, rfl⟩

end Turns

/-! ## What is recorded before a turn -/

section Record

variable {events : List Event} {catalog : Catalog}
variable (hcatalog : Catalog.ofEvents events = .ok catalog)

/-- What a turn adds to the record, and where it comes from. -/
structure Turn.Recorded (events : List Event) (t : Turn) : Prop where
  record : ∀ id, t.after.game.state.completedEvents.contains id = true ↔
    Narrative.Recorded events t.before.game.state (t.before.since t.after) id
  sources : ∀ id, 0 < announcements id (t.before.since t.after) → id = t.candidate.event.id ∨
    ∃ c : Candidate, events[c.position]? = some c.event ∧ c.event.id = id ∧
      FiredInside c (t.before.since t.after)

/-- What was recorded before a turn: what had been at the start, and what the earlier turns
added. -/
theorem Engine.record_before {rule : Bool → Candidate → World → Verdict × World} {ran : Bool}
    {cs : List Candidate} {w : World} {earlier later : List Turn} {t : Turn}
    (h : turnsFrom rule ran cs w = earlier ++ t :: later)
    (hearlier : ∀ t ∈ earlier, t.Recorded events) (id : String) :
    t.before.game.state.completedEvents.contains id = true ↔
      w.game.state.completedEvents.contains id = true ∨
        (∃ c ∈ events, c.isOnce = true ∧ c.id = id) ∧
          ∃ t' ∈ earlier, 0 < announcements id (t'.before.since t'.after) := by
  induction earlier generalizing ran cs w with
  | nil =>
      cases cs with
      | nil => cases h
      | cons c rest =>
          simp only [turnsFrom, List.nil_append, List.cons.injEq] at h
          rw [← h.1]
          simp
  | cons first rest ih =>
      cases cs with
      | nil => cases h
      | cons c cs =>
          simp only [turnsFrom, List.cons_append, List.cons.injEq] at h
          obtain ⟨hfirst, hrest⟩ := h
          have hbefore : first.before = w := by rw [← hfirst]
          have hafter : first.after = (rule ran c w).2 := by rw [← hfirst]
          have hrecord := (hearlier first List.mem_cons_self).record id
          rw [ih hrest fun t ht => hearlier t (List.mem_cons_of_mem first ht), ← hafter, hrecord,
            Recorded, hbefore, or_assoc, ← and_or_left]
          simp only [List.mem_cons, exists_eq_or_imp, hbefore]

include hcatalog

/-- If the receiver leaves the record alone, a turn adds to it the event of its candidate and what
dispatches inside it fired. -/
theorem Turn.Decided.recorded {e : Engine} (he : e.catalog = catalog) {wiring : Wiring}
    (hkeeps : wiring.receiver.KeepsRecord) {k : Nat} {s : SessionState} {payload : Payload}
    {ran : Bool} {t : Turn} (h : t.Decided e wiring k s payload ran)
    (hc : events[t.candidate.position]? = some t.candidate.event) : t.Recorded events := by
  obtain ⟨hdecides, -⟩ := h
  obtain ⟨c, w, verdict, v⟩ := t
  simp only at hdecides hc
  have law := Chronicled.law hcatalog he hkeeps w.inFlight
  have hreach := law.reach_lawful k
  cases hdecides with
  | passed _ hgame htrace _ =>
      have hsame : Chronicled events (.acting 0) w v := .same htrace (by rw [hgame])
      refine ⟨hsame.record, fun id hpos => ?_⟩
      obtain ⟨c', hc', hid, hinside⟩ := hsame.sources id hpos
      exact .inr ⟨c', hc', hid, hinside⟩
  | @executed took v _ _ hfly =>
      have hrun := (law.runAll hreach c.event.actions s
        (Engine.begin c (e.checked s payload c w))).law
      have hrevive := hreach.revive.tracked (.acting k) id
      have hflown := Flown.of_run hcatalog hc hkeeps hrevive hrun took
      rw [← Engine.eq_land_of_fly hfly] at hflown
      -- looking at conditions and trigger is not seen
      have hflown' : Flown events c w _ := hflown.congr_left rfl rfl rfl
      exact ⟨hflown'.record, hflown'.sources⟩

omit hcatalog in
theorem Turn.Records.announced {t : Turn} {c : Candidate} (h : t.Records c) :
    0 < announcements c.event.id (t.before.since t.after) :=
  h.2.among.announced

/-- What a turn recorded was its own candidate, or was fired by a dispatch inside it. -/
theorem Turn.Recorded.records {t : Turn} {c : Candidate} (h : t.Recorded events)
    (ht : events[t.candidate.position]? = some t.candidate.event)
    (hc : events[c.position]? = some c.event) (honce : c.event.isOnce = true)
    (hother : t.candidate ≠ c)
    (hpos : 0 < announcements c.event.id (t.before.since t.after)) : t.Records c := by
  have hid : c.event.hasId = true := (Bool.and_eq_true_iff.1 honce).2
  refine ⟨honce, ?_⟩
  rcases h.sources _ hpos with heq | ⟨c', hc', heq, hinside⟩
  -- no two events have the same id
  · exact absurd (Catalog.candidate_eq_of_id_eq hcatalog hc ht hid heq).symm hother
  · obtain rfl : c = c' := Catalog.candidate_eq_of_id_eq hcatalog hc hc' hid heq.symm
    exact hinside

/-- A candidate that was not recorded at the start of the turns is recorded when its turn comes
exactly if an earlier turn recorded it. -/
theorem Engine.completed_iff {rule : Bool → Candidate → World → Verdict × World} {ran : Bool}
    {cs : List Candidate} {w : World} {earlier later : List Turn} {t : Turn}
    (h : turnsFrom rule ran cs w = earlier ++ t :: later)
    (hcs : ∀ c ∈ cs, events[c.position]? = some c.event)
    (hsorted : cs.Pairwise (·.position < ·.position))
    (hrecorded : ∀ t ∈ earlier, t.Recorded events)
    (hfresh : t.candidate.event.isCompleted w.game.state = false) :
    t.candidate.event.isCompleted t.before.game.state = true ↔
      ∃ t' ∈ earlier, t'.Records t.candidate := by
  have hmap : cs = earlier.map (·.candidate) ++ t.candidate :: later.map (·.candidate) := by
    rw [← map_candidate_turnsFrom rule ran cs w, h, List.map_append, List.map_cons]
  have hc : events[t.candidate.position]? = some t.candidate.event := by
    refine hcs _ ?_
    rw [hmap]
    exact List.mem_append_right _ List.mem_cons_self
  have hbefore : ∀ t' ∈ earlier, events[t'.candidate.position]? = some t'.candidate.event ∧
      t'.candidate ≠ t.candidate := by
    intro t' ht'
    have hmem : t'.candidate ∈ earlier.map (·.candidate) := List.mem_map_of_mem ht'
    rw [hmap] at hcs hsorted
    have hlt := (List.pairwise_append.1 hsorted).2.2 _ hmem _ List.mem_cons_self
    exact ⟨hcs _ (List.mem_append_left _ hmem), fun heq => Nat.ne_of_lt hlt (heq ▸ rfl)⟩
  have hrecord := record_before h hrecorded t.candidate.event.id
  rw [Event.isCompleted] at hfresh ⊢
  constructor
  · intro hcompleted
    obtain ⟨honce, hnow⟩ := Bool.and_eq_true_iff.1 hcompleted
    rw [honce, Bool.true_and] at hfresh
    rcases hrecord.1 hnow with hstart | ⟨-, t', ht', hpos⟩
    · rw [hstart] at hfresh
      cases hfresh
    · obtain ⟨hget, hother⟩ := hbefore t' ht'
      exact ⟨t', ht', (hrecorded t' ht').records hcatalog hget hc honce hother hpos⟩
  · rintro ⟨t', ht', hrecords⟩
    have hknown : ∃ x ∈ events, x.isOnce = true ∧ x.id = t.candidate.event.id :=
      ⟨_, List.mem_of_getElem? hc, hrecords.1, rfl⟩
    rw [hrecords.1, Bool.true_and]
    exact hrecord.2 (.inr ⟨hknown, t', ht', hrecords.announced⟩)

end Record

/-- Events are recorded in no turn but that of a candidate whose actions were begun. -/
theorem Turn.Records.not_passed {t : Turn} {c : Candidate} (h : t.Records c) : ¬ t.Passed := by
  intro hpassed
  obtain ⟨m, b, d, hsub, -⟩ := h.2
  have hnone : t.before.since t.after = [] :=
    World.since_of_trace (hpassed.2.trans (List.nil_append _).symm)
  rw [hnone, List.sublist_nil] at hsub
  cases hsub

/-- If the receiver leaves the record alone, a candidate that was not recorded at the start of a
dispatch is recorded when its turn comes exactly if it was fired by a dispatch inside an
earlier turn. -/
theorem Engine.completed_iff_records {events : List Event} {e : Engine}
    (hcatalog : Catalog.ofEvents events = .ok e.catalog) {wiring : Wiring}
    (hkeeps : wiring.receiver.KeepsRecord) {k : Nat} {triggerType : String} {payload : Payload}
    {w : World} {earlier later : List Turn} {t : Turn}
    (h : e.turns wiring (e.reach wiring k) triggerType payload w = earlier ++ t :: later)
    (hfresh : t.candidate.event.isCompleted w.game.state = false) :
    t.candidate.event.isCompleted t.before.game.state = true ↔
      ∃ t' ∈ earlier, t'.Began ∧ t'.Records t.candidate := by
  have hget : ∀ c ∈ e.catalog.candidates triggerType, events[c.position]? = some c.event :=
    fun _ hc => Catalog.getElem?_of_mem_candidates hcatalog hc
  have hsorted : (e.catalog.candidates triggerType).Pairwise (·.position < ·.position) := by
    rw [Catalog.candidates_ofEvents hcatalog]
    exact Catalog.pairwise_listeners _ _ _
  have hdecided : ∀ t' ∈ earlier, t'.candidate ∈ e.catalog.candidates triggerType ∧
      ∃ ran, t'.Decided e wiring k w.game.state payload ran := by
    intro t' ht'
    have hturn : t' ∈ e.turns wiring (e.reach wiring k) triggerType payload w := by
      rw [h]
      exact List.mem_append_left _ ht'
    refine ⟨?_, (Turn.decided_of_mem_turns hturn).2⟩
    have hmem := List.mem_map_of_mem (f := (·.candidate)) hturn
    rwa [turns, map_candidate_turnsFrom] at hmem
  have hrecorded : ∀ t' ∈ earlier, t'.Recorded events := by
    intro t' ht'
    obtain ⟨hcandidate, ran, hran⟩ := hdecided t' ht'
    exact hran.recorded hcatalog rfl hkeeps (hget _ hcandidate)
  rw [completed_iff hcatalog h hget hsorted hrecorded hfresh]
  -- a turn in which something is recorded was not passed over
  refine exists_congr fun t' => and_congr_right fun ht' => ⟨fun hrecords => ?_, And.right⟩
  obtain ⟨-, ran, hran⟩ := hdecided t' ht'
  have hbegan : t'.Began :=
    Classical.byContradiction fun h => hrecords.not_passed (hran.began_iff.2.2.1 h)
  exact ⟨hbegan, hrecords⟩

/-- **The snapshot of a dispatch decides which candidates are executed.** In a dispatch that is let
in, at the top or inside another, each event of the type has its turn, in authored order. Its
actions are begun exactly if it is eligible in the snapshot and the list of flights of the
start, and is not recorded when its turn comes; else nothing happens in its turn. The game of
its turn does not matter apart from the record. The report has the ids of the candidates
whose execution took effect, in order. If the receiver leaves the record alone, the eligible
candidates that are passed over are those fired, and recorded, by a dispatch inside the turn
of an earlier candidate. -/
theorem snapshot_decides_candidates {events : List Event} {catalog : Catalog}
    (hcatalog : Catalog.ofEvents events = .ok catalog) (config : EngineConfig) (serial : Nat)
    (wiring : Wiring) (k : Nat) (triggerType : String) (payload : Payload) {w : World}
    (hlimit : ¬ config.dispatch.maxDepth ≤ w.depth) :
    let e : Engine := { catalog, config, serial }
    let s := w.game.state
    let turns := e.turns wiring (e.reach wiring k) triggerType payload w
    let result := e.dispatch wiring (e.reach wiring k) triggerType payload w
    turns.map (·.candidate) = Catalog.listeners (Text.typeKey triggerType) 0 events ∧
    result = (⟨triggerType, false, turns.map fun t => (t.candidate.event.id, t.verdict)⟩,
      ((turns.getLast?.map (·.after)).getD (Engine.openDispatch w)).leave) ∧
    (∀ t ∈ turns,
      (t.Began ↔ e.Eligible s w.inFlight payload t.candidate ∧
        t.candidate.event.isCompleted t.before.game.state = false) ∧
      (¬ t.Began → t.Passed) ∧
      (t.verdict = .fired ↔ t.Began ∧ (e.fly wiring (e.reach wiring k) s t.candidate
        (e.checked s payload t.candidate t.before)).1 = true) ∧
      ∀ u : World, u.inFlight = t.before.inFlight →
        u.game.state.completedEvents = t.before.game.state.completedEvents →
        ((e.rule wiring (e.reach wiring k) s payload true t.candidate u).1.isExecuted = true ↔
          t.Began)) ∧
    result.1.fired =
      (turns.filter (·.verdict == .fired)).map (·.candidate.event.id) ∧
    (wiring.receiver.KeepsRecord → ∀ earlier t later, turns = earlier ++ t :: later →
      (t.Began ↔ e.Eligible s w.inFlight payload t.candidate ∧
        ¬ ∃ t' ∈ earlier, t'.Began ∧ t'.Records t.candidate)) := by
  intro e s turns result
  have hresult : result = _ :=
    e.dispatch_eq_turns wiring (e.reach wiring k) triggerType payload hlimit
  have hbegan : ∀ t ∈ turns, t.Began ↔ e.Eligible s w.inFlight payload t.candidate ∧
      t.candidate.event.isCompleted t.before.game.state = false := by
    intro t ht
    obtain ⟨hflight, ran, hran⟩ := Turn.decided_of_mem_turns ht
    rw [← hflight]
    exact hran.began_iff.1
  refine ⟨?_, hresult, fun t ht => ⟨hbegan t ht, ?_⟩, ?_, fun hkeeps earlier t later hsplit => ?_⟩
  · exact Engine.map_candidate_turns hcatalog wiring _ triggerType payload w
  · obtain ⟨hflight, ran, hran⟩ := Turn.decided_of_mem_turns ht
    obtain ⟨-, -, hpassed, hfired⟩ := hran.began_iff
    refine ⟨hpassed, hfired, fun u huflight hurecord => ?_⟩
    -- another world is decided about in the same way
    have hother : Turn.Decided e wiring k s payload true ⟨t.candidate, u, _, _⟩ :=
      ⟨e.decides wiring (e.reach wiring k) s payload true t.candidate u, fun h => by cases h⟩
    rw [hother.began_iff.2.1, hother.began_iff.1, hbegan t ht]
    simp only [Event.isCompleted, huflight, hflight, hurecord]
  · rw [hresult, Report.fired, List.filter_map, List.map_map]
    rfl
  · have ht : t ∈ turns := by
      rw [hsplit]
      exact List.mem_append_right _ List.mem_cons_self
    rw [hbegan t ht]
    refine and_congr_right fun heligible => ?_
    rw [← Bool.not_eq_true,
      Engine.completed_iff_records (e := e) hcatalog hkeeps hsplit heligible.fresh]

/-- A door that opens when somebody knocks, and a guest who enters as soon as it is opened, or at
any other occasion, but once. -/
def doorway : List Event :=
  [{ id := "door", trigger := .ofAuthored { type := "player_action", action := some "knock" },
     conditions := [], actions := [.playerAction (some "open") none], repeatable := true },
   { id := "guest", trigger := .ofAuthored { type := "player_action" },
     conditions := [], actions := [.deed (.giveXp (some 5))], repeatable := false }]

/-- The guest is eligible as well when somebody knocks, but enters inside the turn of the door. -/
theorem guest_enters_inside : ∃ catalog, Catalog.ofEvents doorway = .ok catalog ∧
    let e : Engine := { catalog, config := {}, serial := 0 }
    let wiring : Wiring := ⟨.session .park, true⟩
    let knock : Payload := .playerAction "knock" none
    let turns := e.turns wiring (e.reach wiring 8) "player_action" knock {}
    turns.map (fun t => (t.candidate.event.id, t.verdict)) =
      [("door", .fired), ("guest", .completed)] ∧
    ∀ earlier t later, turns = earlier ++ t :: later →
      (t.Began ↔ e.Eligible {} [] knock t.candidate ∧
        ¬ ∃ t' ∈ earlier, t'.Began ∧ t'.Records t.candidate) := by
  refine ⟨_, rfl, by decide, ?_⟩
  have hcatalog : Catalog.ofEvents doorway = .ok _ := rfl
  have hdispatch := snapshot_decides_candidates hcatalog {} 0 ⟨.session .park, true⟩ 8
    "player_action" (.playerAction "knock" none) (w := {}) (by decide)
  exact hdispatch.2.2.2.2 (Receiver.keepsRecord_session .park)

end Narrative
