import Narrative.Proofs.Abreast
import Narrative.Proofs.Index

set_option autoImplicit false

/-!
# Dispatch is local to trigger types

What an engine does about the trigger types of a set depends on the events that listen for these
types and on nothing else in the catalog (`dispatch_is_local`). Other events may be there or not,
and the events that matter may stand at other positions, as long as each type finds the same
events in the same order and player actions are among the types.

Positions are what the guard against cycles remembers, so the two runs have different positions in
flight. They correspond: the events at two corresponding positions stand at the same place in the
lists of one trigger type (`Catalog.Counterparts`), and as a position belongs to one type and one
place, the correspondence is one to one (`Catalog.Agree.position_iff`). So an event is in flight
in the one run if and only if its counterpart is in the other.
-/

namespace Narrative

/-! ## Catalogs that agree -/

namespace Catalog

/-- Two catalogs that were built from events and have the same candidates for every trigger type in
`K`: the same events in the same order, at whatever positions. -/
structure Agree (K : String → Prop) (c c' : Catalog) : Prop where
  built : ∃ events, ofEvents events = .ok c
  built' : ∃ events, ofEvents events = .ok c'
  events : ∀ t, K (Text.typeKey t) →
    (c'.candidates t).map (·.event) = (c.candidates t).map (·.event)

/-- Two candidates at the same place in the lists of a trigger type in `K`. -/
def Counterparts (K : String → Prop) (c c' : Catalog) (x y : Candidate) : Prop :=
  ∃ (t : String) (n : Nat), K (Text.typeKey t) ∧
    (c.candidates t)[n]? = some x ∧ (c'.candidates t)[n]? = some y

/-- The positions of counterparts. -/
def Relocates (K : String → Prop) (c c' : Catalog) (i j : Nat) : Prop :=
  ∃ x y, Counterparts K c c' x y ∧ x.position = i ∧ y.position = j

/-- The candidates of a type depend on its key only. -/
theorem candidates_congr (c : Catalog) {t t' : String} (h : Text.typeKey t = Text.typeKey t') :
    c.candidates t = c.candidates t' := by
  rw [candidates, candidates, h]

/-- A position belongs to one type key and to one place in its list. -/
theorem place_eq_of_position_eq {events : List Event} {c : Catalog} (h : ofEvents events = .ok c)
    {t t' : String} {n n' : Nat} {x x' : Candidate} (hx : (c.candidates t)[n]? = some x)
    (hx' : (c.candidates t')[n']? = some x') (hposition : x.position = x'.position) :
    Text.typeKey t = Text.typeKey t' ∧ n = n' := by
  have hmem := List.mem_of_getElem? hx
  have hmem' := List.mem_of_getElem? hx'
  have hkey : Text.typeKey t = Text.typeKey t' := by
    have hevent : some x.event = some x'.event := by
      rw [← getElem?_of_mem_candidates h hmem, hposition, getElem?_of_mem_candidates h hmem']
    rw [candidates_ofEvents h] at hmem hmem'
    rw [← (mem_listeners_iff.1 hmem).2, ← (mem_listeners_iff.1 hmem').2, Option.some.inj hevent]
  refine ⟨hkey, ?_⟩
  -- within one list positions grow, so none is met twice
  rw [← candidates_congr c hkey] at hx'
  have hordered := pairwise_listeners (Text.typeKey t) 0 events
  rw [← candidates_ofEvents h t, List.pairwise_iff_getElem] at hordered
  obtain ⟨hn, rfl⟩ := List.getElem?_eq_some_iff.1 hx
  obtain ⟨hn', rfl⟩ := List.getElem?_eq_some_iff.1 hx'
  rcases Nat.lt_trichotomy n n' with hlt | heq | hgt
  · exact absurd hposition (Nat.ne_of_lt (hordered n n' hn hn' hlt))
  · exact heq
  · exact absurd hposition.symm (Nat.ne_of_lt (hordered n' n hn' hn hgt))

namespace Agree

variable {K : String → Prop} {c c' : Catalog} (agree : Agree K c c')

include agree

/-- The events of counterparts are the same. -/
theorem event {x y : Candidate} (h : Counterparts K c c' x y) : y.event = x.event := by
  obtain ⟨t, n, ht, hx, hy⟩ := h
  have hevents := congrArg (·[n]?) (agree.events t ht)
  simpa [hx, hy] using hevents

/-- Each candidate of a type in `K` has a counterpart. -/
theorem counterparts {t : String} (ht : K (Text.typeKey t)) :
    List.Forall₂ (Counterparts K c c') (c.candidates t) (c'.candidates t) := by
  have hlength : (c.candidates t).length = (c'.candidates t).length := by
    simpa using (congrArg List.length (agree.events t ht)).symm
  refine List.forall₂_iff_get.2 ⟨hlength, fun n hn hn' => ⟨t, n, ht, ?_, ?_⟩⟩
  · exact List.getElem?_eq_getElem hn
  · exact List.getElem?_eq_getElem hn'

/-- **The correspondence of positions is one to one.** -/
theorem position_iff {i j i' j' : Nat} (h : Relocates K c c' i j) (h' : Relocates K c c' i' j') :
    i = i' ↔ j = j' := by
  obtain ⟨x, y, ⟨t, n, -, hx, hy⟩, rfl, rfl⟩ := h
  obtain ⟨x', y', ⟨t', n', -, hx', hy'⟩, rfl, rfl⟩ := h'
  obtain ⟨events, hbuilt⟩ := agree.built
  obtain ⟨events', hbuilt'⟩ := agree.built'
  constructor
  · intro hposition
    obtain ⟨hkey, rfl⟩ := place_eq_of_position_eq hbuilt hx hx' hposition
    rw [candidates_congr c' hkey] at hy
    rw [Option.some.inj (hy.symm.trans hy')]
  · intro hposition
    obtain ⟨hkey, rfl⟩ := place_eq_of_position_eq hbuilt' hy hy' hposition
    rw [candidates_congr c hkey] at hx
    rw [Option.some.inj (hx.symm.trans hx')]

end Agree

end Catalog

/-! ## Lists that correspond one to one -/

section OneToOne

variable {P : Nat → Nat → Prop} (hone : ∀ {i j i' j' : Nat}, P i j → P i' j' → (i = i' ↔ j = j'))
variable {xs ys : List Nat} {i j : Nat}

include hone

theorem contains_of_forall₂ (h : List.Forall₂ P xs ys) (hij : P i j) :
    ys.contains j = xs.contains i := by
  induction h with
  | nil => rfl
  | cons hhead _ ih =>
      rw [List.contains_cons, List.contains_cons, ih, Bool.eq_iff_iff, Bool.or_eq_true,
        Bool.or_eq_true, beq_iff_eq, beq_iff_eq, hone hij hhead]

theorem erase_forall₂ (h : List.Forall₂ P xs ys) (hij : P i j) :
    List.Forall₂ P (xs.erase i) (ys.erase j) := by
  induction h with
  | nil => exact .nil
  | @cons x y xs ys hhead htail ih =>
      by_cases hx : x = i
      · obtain rfl := hx
        obtain rfl := (hone hhead hij).1 rfl
        rw [List.erase_cons_head, List.erase_cons_head]
        exact htail
      · have hy : y ≠ j := fun hy => hx ((hone hhead hij).2 hy)
        rw [List.erase_cons_tail (by simpa using hx), List.erase_cons_tail (by simpa using hy)]
        exact .cons hhead ih

end OneToOne

/-! ## Worlds without positions -/

/-- What happens, without the positions of events. -/
def Happening.unplaced : Happening → Happening
  | .dispatched depth _ admitted => .dispatched depth [] admitted
  | .began c => .began ⟨0, c.event⟩
  | x => x

/-- A moment without the positions of events. -/
def Moment.unplaced (m : Moment) : Moment := { m with happening := m.happening.unplaced }

/-- A world without the positions of events. -/
def World.unplaced (w : World) : World :=
  { w with inFlight := [], trace := w.trace.map Moment.unplaced }

/-- What does not depend on positions is the same in worlds that differ in them only. -/
theorem World.congr_unplaced {α : Type} {f : World → α} (hf : ∀ w, f (unplaced w) = f w)
    {u v : World} (h : v.unplaced = u.unplaced) : f v = f u := by
  rw [← hf v, h, hf]

/-- A receiver that does not look at the positions of events. -/
structure Receiver.IgnoresPlaces (r : Receiver) : Prop where
  removes : ∀ {u v : World}, v.unplaced = u.unplaced → r.removes v = r.removes u
  answer : ∀ {u v : World}, v.unplaced = u.unplaced → r.answer v = r.answer u
  acts : ∀ {u v : World}, v.unplaced = u.unplaced → r.acts v = r.acts u

/-- No session looks at them: it sees its game and the number of its scenes. -/
theorem Receiver.ignoresPlaces_session (screen : Screen) :
    (Receiver.session screen).IgnoresPlaces where
  removes {u v} h := by
    have hgame : v.game = u.game := World.congr_unplaced (fun _ => rfl) h
    simp only [Receiver.session, hgame]
  answer {u v} h := by
    have htokens : v.tokens = u.tokens := World.congr_unplaced (fun _ => rfl) h
    simp only [Receiver.session, htokens]
  acts _ := rfl

/-- Two worlds that differ in the positions of events only; those in flight correspond. -/
structure Relocated (P : Nat → Nat → Prop) (u v : World) : Prop where
  world : v.unplaced = u.unplaced
  inFlight : List.Forall₂ P u.inFlight v.inFlight

namespace Relocated

variable {P : Nat → Nat → Prop} {u v : World} {wiring : Wiring}

theorem state (h : Relocated P u v) : v.game.state = u.game.state :=
  World.congr_unplaced (f := fun w => w.game.state) (fun _ => rfl) h.world

theorem depth (h : Relocated P u v) : v.depth = u.depth :=
  World.congr_unplaced (f := World.depth) (fun _ => rfl) h.world

theorem tokens (h : Relocated P u v) : v.tokens = u.tokens :=
  World.congr_unplaced (f := World.tokens) (fun _ => rfl) h.world

/-- What leaves the events in flight alone and does to a world what it does without positions. -/
theorem update (f g : World → World) (hf : ∀ w, (f w).unplaced = g w.unplaced)
    (hflight : ∀ w, (f w).inFlight = w.inFlight) : Carries (Relocated P) f f := by
  intro u v h
  refine ⟨?_, ?_⟩
  · rw [hf, hf, h.world]
  · rw [hflight, hflight]
    exact h.inFlight

/-- What does not look at positions at all. -/
theorem carry (f : World → World) (hf : ∀ w, (f w).unplaced = f w.unplaced)
    (hflight : ∀ w, (f w).inFlight = w.inFlight) : Carries (Relocated P) f f :=
  update f f hf hflight

theorem note (x : Happening) : Carries (Relocated P) (·.note x) (·.note x) :=
  update (·.note x) (·.note x.unplaced) (fun _ => rfl) fun _ => rfl

theorem count (f : Counters → Counters) : Carries (Relocated P) (·.count f) (·.count f) :=
  carry (·.count f) (fun _ => rfl) fun _ => rfl

theorem changeGame (f : Game → Game) :
    Carries (Relocated P) (·.changeGame f) (·.changeGame f) :=
  carry (·.changeGame f) (fun _ => rfl) fun _ => rfl

theorem write (f : List Entry → List Entry) :
    Carries (Relocated P) (fun w => { w with journal := f w.journal })
      (fun w => { w with journal := f w.journal }) :=
  carry (fun w => { w with journal := f w.journal }) (fun _ => rfl) fun _ => rfl

/-- A receiver that ignores positions cannot tell the worlds apart. -/
theorem unaware (hreceiver : wiring.receiver.IgnoresPlaces) :
    Unaware wiring wiring Eq (Relocated P) where
  removes h := hreceiver.removes h.world
  answer h := hreceiver.answer h.world
  acts h := hreceiver.acts h.world
  tokens h := by
    rw [h.tokens]
    exact List.forall₂_same.2 fun t _ => ⟨rfl, rfl, Sequel.fits_self fun _ _ => rfl⟩
  noted := note
  acted a hresume := by
    cases a with
    | change f => exact changeGame f
    | park token =>
        exact carry (fun w => { w with queue := w.queue ++ [token] }) (fun _ => rfl) fun _ => rfl
    | keep token =>
        exact carry (fun w => { w with kept := w.kept ++ [token] }) (fun _ => rfl) fun _ => rfl
    | resume token => exact hresume token rfl
  logged entry := by
    intro u v h
    simp only [World.log]
    split
    · exact write (· ++ [entry]) h
    · exact h
  filled {u v} h kind answer := by
    intro u' v' h'
    have hjournal : v.journal = u.journal :=
      World.congr_unplaced (f := World.journal) (fun _ => rfl) h.world
    simp only [World.fillIn, hjournal]
    split
    · exact write (·.modify u.journal.length (·.answered kind answer)) h'
    · exact h'
  handed request answer sequel sequel' hsequel := by
    have heq : sequel' = sequel := by
      cases hsequel with
      | none => rfl
      | some hq => rw [hq.eq]
    subst heq
    exact fun {_ _} h => carry (·.hand request answer sequel') (fun _ => rfl) (fun _ => rfl) h
  redeemed token := carry (·.redeem token) (fun _ => rfl) fun _ => rfl
  lapsed token := carry (·.lapse token) (fun _ => rfl) fun _ => rfl

/-- What the host does to the queue is the same. -/
theorem hosted : Hosted (Relocated P) where
  queue h := World.congr_unplaced (f := World.queue) (fun _ => rfl) h.world
  kept h := World.congr_unplaced (f := World.kept) (fun _ => rfl) h.world
  unqueued queue := carry (fun w => { w with queue }) (fun _ => rfl) fun _ => rfl

/-! ## Engines over catalogs that agree -/

theorem conditionsHold {e e' : Engine} (hconfig : e'.config = e.config) (cs : List Condition)
    (s : SessionState) (h : Relocated P u v) :
    Matches (Relocated P) (e.conditionsHold cs s u) (e'.conditionsHold cs s v) := by
  rw [Engine.conditionsHold, Engine.conditionsHold, hconfig]
  exact ⟨rfl, count (·.plus
    { unknownEvaluations := Condition.unknownsMet e.config.dispatch.unknownConditions s cs }) h⟩

theorem triggerMatches {e e' : Engine} (hconfig : e'.config = e.config) (t : Trigger)
    (p : Payload) (s : SessionState) (h : Relocated P u v) :
    Matches (Relocated P) (e.triggerMatches t p s u) (e'.triggerMatches t p s v) := by
  rw [Engine.triggerMatches, Engine.triggerMatches, hconfig]
  exact ⟨rfl, count (·.plus { unknownEvaluations := if t.kind.isUnknown then 1 else 0 }) h⟩

/-- **Engines whose catalogs agree are twins**, as far as the trigger types in `K` go. -/
theorem twins {K : String → Prop} {e e' : Engine} (agree : e.catalog.Agree K e'.catalog)
    (hconfig : e'.config = e.config) (hserial : e'.serial = e.serial) (hraised : K Engine.raisedType)
    (hreceiver : wiring.receiver.IgnoresPlaces) :
    Twins e e' wiring wiring ⟨fun t => K (Text.typeKey t), e.catalog.Counterparts K e'.catalog, Eq⟩
      (Relocated (e.catalog.Relocates K e'.catalog)) where
  limit := by rw [hconfig]
  state := state
  depth := depth
  counted more _ := count (·.plus more)
  stalled := note .stalled
  dispatched admitted :=
    update (fun w => w.note (.dispatched w.depth w.inFlight admitted))
      (fun w => w.note (.dispatched w.depth [] admitted)) (fun _ => rfl) fun _ => rfl
  entered := carry World.enter (fun _ => rfl) fun _ => rfl
  left := carry World.leave (fun _ => rfl) fun _ => rfl
  raised := by
    have hkey : Text.typeKey Engine.raisedType = Engine.raisedType := by decide
    show K (Text.typeKey Engine.raisedType)
    rwa [hkey]
  candidates := agree.counterparts
  id hc := by rw [agree.event hc]
  repeatable hc := by rw [agree.event hc]
  actions hc := by rw [agree.event hc]
  conditions {c c'} hc s u v h := by
    rw [agree.event hc]
    exact h.conditionsHold hconfig c.event.conditions s
  trigger {c c'} hc p s u v h := by
    rw [agree.event hc]
    exact h.triggerMatches hconfig c.event.trigger p s
  flying {c c'} hc u v h := contains_of_forall₂ agree.position_iff h.inFlight ⟨c, c', hc, rfl, rfl⟩
  begun {c c'} hc u v h := by
    refine ⟨?_, .cons ⟨c, c', hc, rfl, rfl⟩ h.inFlight⟩
    show v.unplaced.note (.began ⟨0, c'.event⟩) = u.unplaced.note (.began ⟨0, c.event⟩)
    rw [h.world, agree.event hc]
  landed {c c'} hc u v h :=
    ⟨h.world, erase_forall₂ agree.position_iff h.inFlight ⟨c, c', hc, rfl, rfl⟩⟩
  recorded event := changeGame event.record
  call hreach x _ _ h := (unaware hreceiver).perform hreach.revive x h
  runAll {k} hreach actions actions' hactions s u v h := by
    subst hactions
    have acting := (unaware hreceiver).acting (fun _ => True) hserial (fun _ => rfl) state
      (count fun n => { n with actionsExecuted := n.actionsExecuted + 1 })
      (fun {test} _ s _ _ h => h.conditionsHold hconfig [test] s) hreach
    exact acting.runAll actions (fun _ _ => trivial) s h
  resumption _ _ hruns token := (unaware hreceiver).follow hserial hruns token

end Relocated

/-! ## Runs of the host -/

/-- What is compared: trigger types in `K`, the same actions, worlds that differ in the positions of
events only, engines with the same settings over catalogs that agree, and receivers that ignore
positions. -/
def localPairing (K : String → Prop) : Pairing where
  types t := K (Text.typeKey t)
  fits := Eq
  worlds u v := v.unplaced = u.unplaced
  engines e e' := e.catalog.Agree K e'.catalog ∧ e'.config = e.config ∧ e'.serial = e.serial
  wirings wiring := wiring.receiver.IgnoresPlaces

/-- Between moves nothing is in flight, so the worlds differ in the positions of any catalogs. -/
theorem Relocated.of_paired {K : String → Prop} {p q : Play} (h : p.Paired (localPairing K) q)
    (P : Nat → Nat → Prop) : Relocated P p.world q.world := by
  refine ⟨h.world, ?_⟩
  rw [h.idle, h.idle']
  exact .nil

theorem sound_localPairing {K : String → Prop} (hraised : K Engine.raisedType) :
    (localPairing K).Sound where
  journal h := World.congr_unplaced (f := World.journal) (fun _ => rfl) h
  drained h := by
    exact congrArg (fun w : World => { w with journal := [] }) h
  lost serial _ _ h := congrArg (World.note · (.engineLost serial)) h
  renewed h := by
    exact congrArg (fun w : World => { w with counters := {}, depth := 0 }) h
  serial h := h.2.2
  abreast {p q} h := by
    have hunaware : ∀ {P}, Unaware p.wiring q.wiring Eq (Relocated P) := by
      rw [h.wiring]
      exact Relocated.unaware h.wired
    have hnesting : q.wiring.receiver.nesting = p.wiring.receiver.nesting := by rw [h.wiring]
    -- the positions in flight during a move are those of the catalogs at work
    rcases rel_cases h.engine with ⟨hp, hq⟩ | ⟨e, e', hp, hq, agree, hconfig, hserial⟩
    · refine ⟨⟨_, Eq, Eq⟩, Relocated Eq,
        ⟨⟨.of_paired h _, ?_, hnesting⟩, hunaware, Relocated.hosted⟩, fun _ ht => ht,
        fun _ _ ha => ha, fun hworld _ _ => hworld.world⟩
      rw [hp, hq]
      exact .none
    · have twins := Relocated.twins agree hconfig hserial hraised h.wired
      refine ⟨⟨_, e.catalog.Counterparts K e'.catalog, Eq⟩, _,
        ⟨⟨.of_paired h (e.catalog.Relocates K e'.catalog), ?_, hnesting⟩, hunaware,
          Relocated.hosted⟩, fun _ ht => ht, fun _ _ ha => ha, fun hworld _ _ => hworld.world⟩
      rw [hp, hq, h.wiring]
      exact .some ⟨hserial, twins⟩

/-- A world is the same as another but for the trace if they differ in the positions of events only
and none is in flight. -/
theorem World.eq_of_unplaced {u v : World} (h : v.unplaced = u.unplaced) (hu : u.inFlight = [])
    (hv : v.inFlight = []) : v = { u with trace := v.trace } := by
  obtain ⟨game, tokens, queue, kept, journal, counters, depth, inFlight, trace⟩ := u
  obtain ⟨game', tokens', queue', kept', journal', counters', depth', inFlight', trace'⟩ := v
  simp only [World.unplaced, World.mk.injEq] at h hu hv ⊢
  obtain ⟨rfl, rfl, rfl, rfl, rfl, rfl, rfl, -, -⟩ := h
  exact ⟨rfl, rfl, rfl, rfl, rfl, rfl, rfl, hv.trans hu.symm, trivial⟩

/-- **Dispatch is local to trigger types.** Let player actions be among the trigger types of a set,
and let two catalogs have the same candidates for the types of the set: the same events in the
same order, at whatever positions and among whatever other events. Then no host that submits only
these types can tell the catalogs apart: whatever it does, and whenever it reads the journal, it
gets the same answers and the same entries, and comes to the same world, with the same game,
scenes, journal and counters. The trace tells the same moments but for the positions of the
events. This holds of every receiver that does not look at positions, and so of every session. -/
theorem dispatch_is_local {K : String → Prop} {c c' : Catalog} {wiring : Wiring}
    {steps steps' : List HostStep} (hraised : K Engine.raisedType) (agree : c.Agree K c')
    (hreceiver : wiring.receiver.IgnoresPlaces)
    (hsteps : List.Forall₂ (HostStep.Fits (Move.Paired (localPairing K))) steps steps')
    (config : EngineConfig) (state : SessionState) :
    let r := (Play.start c config wiring state).proceed steps
    let r' := (Play.start c' config wiring state).proceed steps'
    r'.answers = r.answers ∧ r'.taken = r.taken ∧
      r'.play.world = { r.play.world with trace := r'.play.world.trace } ∧
      r'.play.world.trace.map Moment.unplaced = r.play.world.trace.map Moment.unplaced := by
  intro r r'
  have hstart : (Play.start c config wiring state).Paired (localPairing K)
      (Play.start c' config wiring state) :=
    ⟨rfl, rfl, rfl, .some ⟨agree, rfl, rfl⟩, rfl, rfl, hreceiver⟩
  obtain ⟨hanswers, htaken, hlast⟩ := hstart.proceed (sound_localPairing hraised) hsteps
  exact ⟨hanswers, htaken, World.eq_of_unplaced hlast.world hlast.idle hlast.idle',
    congrArg World.trace hlast.world⟩

/-- An event that raises the player action it waits for. -/
def echo : Event where
  id := "echo"
  trigger := .ofAuthored { type := "player_action", action := some "shout" }
  conditions := []
  actions := [.deed (.giveXp (some 5)), .playerAction (some "shout") none]
  repeatable := true

/-- An event for whoever enters a room. -/
def draught : Event where
  id := "draught"
  trigger := .ofAuthored { type := "enter_room" }
  conditions := []
  actions := [.deed (.giveXp (some 1))]
  repeatable := true

/-- With an event for rooms in front of it an event for player actions stands at another position,
and what it raises finds that position in flight. The host hears and reads the same. -/
theorem echo_is_local : ∃ c c', Catalog.ofEvents [echo] = .ok c ∧
    Catalog.ofEvents [draught, echo] = .ok c' ∧ c.Agree (· = "player_action") c' ∧
    let steps : List HostStep := [.move (.occur (.playerAction "shout" none)), .drain]
    let r := (Play.start c {} ⟨.session .park, true⟩ {}).proceed steps
    let r' := (Play.start c' {} ⟨.session .park, true⟩ {}).proceed steps
    r.play.world.counters.cyclesSkipped = 1 ∧ r.taken.length = 2 ∧ r'.answers = r.answers ∧
      r'.taken = r.taken := by
  refine ⟨_, _, rfl, rfl, ?_⟩
  have hc : Catalog.ofEvents [echo] = .ok _ := rfl
  have hc' : Catalog.ofEvents [draught, echo] = .ok _ := rfl
  have hecho : echo.trigger.typeKey = "player_action" := by decide
  have hdraught : draught.trigger.typeKey ≠ "player_action" := by decide
  have agree : Catalog.Agree (· = "player_action") _ _ := {
    built := ⟨_, hc⟩
    built' := ⟨_, hc'⟩
    events := fun t ht => by
      rw [Catalog.candidates_ofEvents hc, Catalog.candidates_ofEvents hc', ht]
      simp [Catalog.listeners, hecho, hdraught] }
  have hkey : Text.typeKey "player_action" = "player_action" := by decide
  have hshout : (Move.occur (.playerAction "shout" none)).Paired
      (localPairing (· = "player_action")) (.occur (.playerAction "shout" none)) :=
    .fits (.occur hkey)
  have hlocal := @dispatch_is_local (· = "player_action") _ _ ⟨.session .park, true⟩ _ _ rfl agree
    (Receiver.ignoresPlaces_session .park) (.cons (.move hshout) (.cons .drain .nil)) {} {}
  exact ⟨agree, by decide, by decide, hlocal.1, hlocal.2.1⟩

end Narrative
