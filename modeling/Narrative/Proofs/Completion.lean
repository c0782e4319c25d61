import Narrative.Proofs.Index
import Narrative.Proofs.Moves

set_option autoImplicit false

/-!
# Events that fire once

An event that must not fire again is announced at most once in a run, and its actions are
never begun once it is recorded. The snapshot of a dispatch may be old; what keeps the
record right is that no two events in flight are the same and none of them is recorded
(`OnceLaw.flight`, `OnceLaw.nodup`), so an event that takes effect is recorded for
the first time.

The record at any moment is exactly what it was at the start and the events announced
since (`once_events_fire_once`).
-/

namespace Narrative

/-! ## Receivers that leave the record alone -/

/-- The engine alone records events if the receiver never touches the record. -/
def Receiver.KeepsRecord (r : Receiver) : Prop :=
  ∀ {w : World} {call : Call} {f : Game → Game}, .change f ∈ r.acts w call →
    Narrative.KeepsRecord f

/-- A reward touches the inventory and the amounts that were earned, and nothing else. -/
theorem Game.exists_granted (g : Game) (r : Reward) : ∃ inventory xp credits ap, g.grant r =
    ⟨{ g.state with inventory }, { g.progress with xp, credits, ap }⟩ := by
  have hitems : ∀ (items : List RewardItem) (g : Game), ∃ inventory,
      items.foldl (fun g i => g.addItem i.item i.quantity) g =
        ⟨{ g.state with inventory }, g.progress⟩ := by
    intro items
    induction items with
    | nil => exact fun _ => ⟨_, rfl⟩
    | cons i rest ih => exact fun g => ih (g.addItem i.item i.quantity)
  rw [Game.grant]
  split
  · exact ⟨_, _, _, _, rfl⟩
  · obtain ⟨inventory, hinventory⟩ := hitems r.items _
    exact ⟨inventory, _, _, _, hinventory⟩

/-- A reward touches nothing of a session state but the inventory. -/
theorem Game.exists_grant (g : Game) (r : Reward) :
    ∃ inventory, (g.grant r).state = { g.state with inventory } := by
  obtain ⟨inventory, _, _, _, hgranted⟩ := g.exists_granted r
  exact ⟨inventory, congrArg Game.state hgranted⟩

theorem Game.keepsRecord_grant (r : Reward) : Narrative.KeepsRecord (·.grant r) := by
  intro g
  obtain ⟨inventory, hgrant⟩ := g.exists_grant r
  rw [hgrant]

/-- No effect touches the record. -/
theorem Game.keepsRecord_apply (x : Effect) : Narrative.KeepsRecord (·.apply x) := by
  intro g
  cases x with
  | grantReward r => exact Game.keepsRecord_grant r g
  | takeItem item quantity =>
      simp only [Game.apply]
      split <;> rfl
  | failQuest quest reason =>
      simp only [Game.apply]
      split <;> rfl
  | advanceQuestStage quest stage => cases quest <;> cases stage <;> rfl
  | updateQuestTask quest task => cases quest <;> cases task <;> rfl
  | _ => rfl

/-- A session leaves the record to the engine, whatever its screen. -/
theorem Receiver.keepsRecord_session (screen : Screen) :
    (Receiver.session screen).KeepsRecord := by
  intro w call f hf
  cases call with
  | effect x =>
      rw [Receiver.session, List.mem_singleton] at hf
      rw [Act.change.inj hf]
      exact Game.keepsRecord_apply x
  | scene token request =>
      simp only [Receiver.session] at hf
      cases screen with
      | park => simp [Screen.acts] at hf
      | finishAtOnce =>
          simp only [Screen.acts, List.mem_cons, List.not_mem_nil, or_false, reduceCtorEq] at hf
          rw [Act.change.inj hf]
          exact Game.keepsRecord_seeTutorial _
      | entrust handling =>
          simp only [Screen.acts, List.mem_append, List.mem_replicate] at hf
          rcases hf with hf | ⟨-, hf⟩
          · split at hf <;> simp at hf
          · cases hf

/-! ## Announcements -/

/-- Whether something that happens is the announcement that an event has fired. -/
def Happening.announces (id : String) : Happening → Bool
  | .called (.effect (.eventCompleted x) _) => x == id
  | _ => false

/-- The candidate whose actions are begun. -/
def Happening.candidate? : Happening → Option Candidate
  | .began c => some c
  | _ => none

/-- The number of announcements of an event. -/
def announcements (id : String) (trace : List Moment) : Nat :=
  trace.countP (·.happening.announces id)

/-- The record that a run must have led to: what was recorded at its start, and the events that
fire once and were announced since. -/
def Recorded (events : List Event) (s : SessionState) (trace : List Moment) (id : String) : Prop :=
  s.completedEvents.contains id = true ∨
    (∃ c ∈ events, c.isOnce = true ∧ c.id = id) ∧ 0 < announcements id trace

/-- What holds of a world of a run over a catalog of events that started in a state. -/
structure OnceLaw (events : List Event) (s : SessionState) (w : World) : Prop where
  now : ∀ id, w.game.state.completedEvents.contains id = true ↔ Recorded events s w.trace id
  before : ∀ m older, m :: older <:+ w.trace → ∀ id,
    m.game.state.completedEvents.contains id = true ↔ Recorded events s (m :: older) id
  begun : ∀ m ∈ w.trace, ∀ c, m.happening = .began c →
    c.event.isCompleted m.game.state = false
  once : ∀ c ∈ events, c.isOnce = true → announcements c.id w.trace ≤ 1 ∧
    (s.completedEvents.contains c.id = true → announcements c.id w.trace = 0)
  flight : ∀ i ∈ w.inFlight, ∀ c, events[i]? = some c → c.isCompleted w.game.state = false
  nodup : w.inFlight.Nodup

namespace OnceLaw

variable {events : List Event} {s : SessionState} {u v w : World}

/-- A change that leaves the record, the flights and the trace alone. -/
theorem same (h : OnceLaw events s u)
    (hrecord : v.game.state.completedEvents = u.game.state.completedEvents)
    (hflight : v.inFlight = u.inFlight) (htrace : v.trace = u.trace) : OnceLaw events s v where
  now id := by
    rw [hrecord, htrace]
    exact h.now id
  before m older := by
    rw [htrace]
    exact h.before m older
  begun m hm := h.begun m (htrace ▸ hm)
  once c hc := by
    rw [htrace]
    exact h.once c hc
  flight i hi c hc := by
    rw [Event.isCompleted, hrecord]
    exact h.flight i (hflight ▸ hi) c hc
  nodup := by
    rw [hflight]
    exact h.nodup

theorem announcements_cons {m : Moment} {id : String} {trace : List Moment} :
    announcements id (m :: trace) =
      announcements id trace + if m.happening.announces id then 1 else 0 := by
  simp [announcements, List.countP_cons]

/-- A moment at which no event is announced and no recorded event is begun. -/
theorem note {h : Happening} (hu : OnceLaw events s u) (hquiet : ∀ id, h.announces id = false)
    (hbegun : ∀ c, h = .began c → c.event.isCompleted u.game.state = false) :
    OnceLaw events s (u.note h) := by
  have hcount : ∀ id, announcements id (u.note h).trace = announcements id u.trace := by
    intro id
    simp [World.note, announcements_cons, hquiet]
  have hnow : ∀ id, u.game.state.completedEvents.contains id = true ↔
      Recorded events s (u.note h).trace id := by
    intro id
    rw [Recorded, hcount]
    exact hu.now id
  refine ⟨hnow, forall_suffix_cons hnow hu.before, ?_, fun c hc hid => ?_, hu.flight, hu.nodup⟩
  · intro m hm c hc
    rcases List.mem_cons.1 hm with rfl | hm
    · exact hbegun c hc
    · exact hu.begun m hm c hc
  · rw [hcount]
    exact hu.once c hc hid

/-- A moment at which no event is announced and none is begun. -/
theorem noteQuiet {h : Happening} (hu : OnceLaw events s u) (hquiet : ∀ id, h.announces id = false)
    (hnone : h.candidate? = none) : OnceLaw events s (u.note h) := by
  refine hu.note hquiet ?_
  rintro c rfl
  cases hnone

/-- A candidate begins, if it is neither in flight nor recorded. -/
theorem begin {c : Candidate} (hu : OnceLaw events s u) (hc : events[c.position]? = some c.event)
    (hnew : c.position ∉ u.inFlight) (hlive : c.event.isCompleted u.game.state = false) :
    OnceLaw events s (Engine.begin c u) := by
  have hnoted : OnceLaw events s (u.note (.began c)) := by
    refine hu.note (fun _ => rfl) fun c' hc' => ?_
    rwa [← Happening.began.inj hc']
  refine ⟨hnoted.now, hnoted.before, hnoted.begun, hnoted.once, fun i hi c' hc' => ?_, ?_⟩
  · rcases List.mem_cons.1 hi with rfl | hi
    · rw [hc, Option.some.injEq] at hc'
      rwa [← hc']
    · exact hu.flight i hi c' hc'
  · exact List.nodup_cons.2 ⟨hnew, hu.nodup⟩

/-- The innermost event in flight lands. -/
theorem land {i : Nat} {rest : List Nat} (hu : OnceLaw events s u) (hi : u.inFlight = i :: rest) :
    OnceLaw events s (u.land i) ∧ i ∉ (u.land i).inFlight := by
  have hrest : (u.land i).inFlight = rest := by
    rw [World.land, hi]
    exact List.erase_cons_head _ _
  obtain ⟨hnot, hnodup⟩ := List.nodup_cons.1 (hi ▸ hu.nodup)
  refine ⟨⟨hu.now, hu.before, hu.begun, hu.once, fun j hj c hc => ?_, ?_⟩, ?_⟩
  · rw [hrest] at hj
    exact hu.flight j (hi ▸ List.mem_cons_of_mem i hj) c hc
  · rwa [hrest]
  · rwa [hrest]

theorem contains_record (c : Event) (g : Game) (id : String) :
    (c.record g).state.completedEvents.contains id = true ↔
      (c.isOnce = true ∧ id = c.id) ∨ g.state.completedEvents.contains id = true := by
  rw [Event.record]
  split
  · next honce => simp [Game.markEvent, Game.updateState, honce]
  · next honce => simp [honce]

/-- Recording one event leaves every other as it was. -/
theorem isCompleted_record {c c' : Event} {g : Game} (hne : c'.id ≠ c.id)
    (h : c'.isCompleted g.state = false) : c'.isCompleted (c.record g).state = false := by
  rw [Event.isCompleted, Bool.and_eq_false_iff] at h ⊢
  refine h.imp id fun hnot => Bool.eq_false_iff.2 fun hcontains => ?_
  rcases (contains_record c g c'.id).1 hcontains with ⟨-, heq⟩ | hbefore
  · exact hne heq
  · exact absurd hbefore (Bool.eq_false_iff.1 hnot)

/-- The announcement of an event that is the only one with its id adds it to the record, if it
must not fire again, and nothing else. -/
theorem recorded_cons {m : Moment} {trace : List Moment} {c : Event} (hc : c ∈ events)
    (hsole : ∀ c' ∈ events, c'.id = c.id → c' = c)
    (hm : m.happening = .called (.effect (.eventCompleted c.id) true)) (id : String) :
    Recorded events s (m :: trace) id ↔
      (c.isOnce = true ∧ id = c.id) ∨ Recorded events s trace id := by
  have hannounces : m.happening.announces id = (c.id == id) := by
    rw [hm]
    rfl
  rw [Recorded, Recorded, announcements_cons, hannounces]
  by_cases heq : id = c.id
  · subst heq
    by_cases honce : c.isOnce = true
    · have hlater : ∃ c' ∈ events, c'.isOnce = true ∧ c'.id = c.id := ⟨c, hc, honce, rfl⟩
      simp [honce, hlater]
    · have hnone : ¬ ∃ c' ∈ events, c'.isOnce = true ∧ c'.id = c.id := by
        rintro ⟨c', hc', honce', heq⟩
        exact honce (hsole c' hc' heq ▸ honce')
      simp [honce, hnone]
  · have hne : (c.id == id) = false := beq_eq_false_iff_ne.2 (Ne.symm heq)
    simp [heq, hne]

section Built

variable {catalog : Catalog} (hcatalog : Catalog.ofEvents events = .ok catalog)

include hcatalog

/-- An event that has landed and was not recorded is recorded and announced. -/
theorem announce {i : Nat} {c : Event} (hu : OnceLaw events s u) (hi : events[i]? = some c)
    (hid : c.hasId = true) (hnew : i ∉ u.inFlight) (hlive : c.isCompleted u.game.state = false) :
    OnceLaw events s
      ((u.changeGame c.record).note (.called (.effect (.eventCompleted c.id) true))) := by
  have hmem : c ∈ events := List.mem_of_getElem? hi
  have hsole : ∀ c' ∈ events, c'.id = c.id → c' = c :=
    fun _ hc' heq => Catalog.eq_of_id_eq hcatalog hi hid hc' heq
  -- the event is announced for the first time if it must not fire again
  have hfresh : c.isOnce = true → ¬ Recorded events s u.trace c.id := by
    intro honce hrec
    have hcontains := (hu.now c.id).2 hrec
    rw [Event.isCompleted, honce, Bool.true_and, hcontains] at hlive
    cases hlive
  have hnow : ∀ id, (c.record u.game).state.completedEvents.contains id = true ↔
      Recorded events s ((u.changeGame c.record).note
        (.called (.effect (.eventCompleted c.id) true))).trace id := by
    intro id
    rw [contains_record, hu.now id, World.note]
    exact (recorded_cons hmem hsole rfl id).symm
  refine ⟨hnow, forall_suffix_cons hnow hu.before, ?_, ?_, ?_, hu.nodup⟩
  · intro m hm c' hc'
    rcases List.mem_cons.1 hm with rfl | hm
    · cases hc'
    · exact hu.begun m hm c' hc'
  · intro c' hc' honce
    rw [World.note, announcements_cons]
    by_cases heq : c'.id = c.id
    · obtain rfl := hsole c' hc' heq
      have hnone : ¬ Recorded events s u.trace c'.id := hfresh honce
      have hzero : announcements c'.id u.trace = 0 := by
        refine Nat.eq_zero_of_not_pos fun hpos => hnone (.inr ⟨⟨c', hc', honce, rfl⟩, hpos⟩)
      have hone : (announcements c'.id (u.changeGame c'.record).trace +
          if Happening.announces c'.id (.called (.effect (.eventCompleted c'.id) true)) then 1
          else 0) = 1 := by
        simp [World.changeGame, hzero, Happening.announces]
      rw [hone]
      exact ⟨Nat.le_refl 1, fun hs => absurd (.inl hs) hnone⟩
    · have hne : Happening.announces c'.id
          (.called (.effect (.eventCompleted c.id) true)) = false :=
        beq_eq_false_iff_ne.2 (Ne.symm heq)
      rw [hne]
      exact hu.once c' hc' honce
  · intro j hj c' hc'
    -- two events in flight are never the same, so none of the others is recorded with this one
    refine isCompleted_record (fun heq => ?_) (hu.flight j hj c' hc')
    have hij : i = j := Catalog.position_eq_of_id_eq hcatalog hi hc' hid heq.symm
    exact hnew (hij ▸ hj)

/-- A candidate in flight takes effect. -/
theorem fire {t : String} {c : Candidate} {rest : List Nat} (hu : OnceLaw events s u)
    (hc : c ∈ catalog.candidates t) (hi : u.inFlight = c.position :: rest) :
    OnceLaw events s (u.fire c) := by
  have hget : events[c.position]? = some c.event := Catalog.getElem?_of_mem_candidates hcatalog hc
  have hlive : c.event.isCompleted u.game.state = false :=
    hu.flight c.position (hi ▸ List.mem_cons_self) c.event hget
  obtain ⟨hland, hnew⟩ := hu.land hi
  unfold World.fire
  simp only
  split
  · next hid => exact announce hcatalog hland hget hid hnew hlive
  -- an event without an id may always fire again, so nothing was recorded
  · next hid =>
      have honce : c.event.isOnce = false := by
        rw [Event.isOnce, Bool.eq_false_iff.2 hid, Bool.and_false]
      refine hland.same ?_ rfl rfl
      simp [World.changeGame, Event.record, honce]

/-! ## Steps and runs -/

variable {e : Engine} {alive : Option Nat} {wiring : Wiring}
variable (hkeeps : wiring.receiver.KeepsRecord)

include hkeeps

omit hcatalog in
theorem touch (h : Touch alive wiring u v) (hu : OnceLaw events s u) : OnceLaw events s v := by
  cases h with
  | counted | parked | kept | handed | logged => exact hu.same rfl rfl rfl
  | called _ entry hentry =>
      -- only the step that fires an event announces it
      refine hu.noteQuiet (fun id => ?_) rfl
      unfold Happening.announces
      split
      · next h =>
          obtain rfl := Happening.called.inj h
          exact absurd rfl (hentry _ _)
      · rfl
  -- the receiver leaves the record alone
  | changed _ hf => exact hu.same (hkeeps hf _) rfl rfl
  | redeemed | lapsed =>
      have hnoted : ∀ token status outcome, OnceLaw events s
          ((u.spend token status).note (.resumed token outcome)) := fun token status _ =>
        noteQuiet (u := u.spend token status) (hu.same rfl rfl rfl) (fun _ => rfl) rfl
      exact (hnoted _ _ _).same rfl rfl rfl
  | ignored | returned => exact hu.noteQuiet (fun _ => rfl) rfl

/-- Every step of an engine over the catalog keeps the law. -/
theorem step {g h : Stage} (he : e.catalog = catalog) (hs : Step e alive wiring g u h v)
    (hu : OnceLaw events s u) : OnceLaw events s v := by
  cases hs with
  | touched h => exact touch hkeeps h hu
  | shifted => exact hu
  | stalled => exact hu.noteQuiet (fun _ => rfl) rfl
  | refused | opened =>
      have hnoted : ∀ admitted, OnceLaw events s
          (u.note (.dispatched u.depth u.inFlight admitted)) :=
        fun _ => hu.noteQuiet (fun _ => rfl) rfl
      exact (hnoted _).same rfl rfl rfl
  | closed | tallied => exact hu.same rfl rfl rfl
  | began hc _ hnew hlive =>
      exact hu.begin (Catalog.getElem?_of_mem_candidates hcatalog (he ▸ hc)) hnew hlive
  | landed hi => exact (hu.land hi).1
  | fired hc hi => exact fire hcatalog hu (he ▸ hc) hi

/-- Every passage of a host that leaves the record alone keeps the law. -/
theorem passage (he : e.catalog = catalog) (hp : Passage e alive wiring False u v)
    (hu : OnceLaw events s u) : OnceLaw events s v := by
  cases hp with
  | course _ _ hc => exact hc.induct (I := fun _ => OnceLaw events s) (step hcatalog hkeeps he) hu
  | arranged _ hf =>
      rcases hf with hlax | hf
      · exact hlax.elim
      · exact hu.same (hf _) rfl rfl
  | unqueued => exact hu.same rfl rfl rfl
  | called _ _ hlax => exact hlax.elim

end Built

/-- A play that starts has announced nothing. -/
theorem start (catalog : Catalog) (config : EngineConfig) (wiring : Wiring) :
    OnceLaw events s (Play.start catalog config wiring s).world where
  now id := by
    show s.completedEvents.contains id = true ↔ _
    simp [Recorded, announcements, Play.start, Play.restart, Play.dropEngine]
  before m older hm := by simp [Play.start, Play.restart, Play.dropEngine] at hm
  begun m hm := by simp [Play.start, Play.restart, Play.dropEngine] at hm
  once c _ _ := by simp [announcements, Play.start, Play.restart, Play.dropEngine]
  flight i hi := by simp [Play.start, Play.restart, Play.dropEngine] at hi
  nodup := List.nodup_nil

end OnceLaw

/-- **An event that must not fire again fires at most once.** In every run of a host that leaves
the record of fired events to the engine, such an event is announced at most once, and not at
all if it was recorded at the start; its actions are not begun while it is recorded; it is
recorded by the time it is announced; and the record is at every moment, and at the end, what
it was at the start and the events announced since. -/
theorem once_events_fire_once {events : List Event} {catalog : Catalog}
    (hcatalog : Catalog.ofEvents events = .ok catalog) (config : EngineConfig) {wiring : Wiring}
    (hkeeps : wiring.receiver.KeepsRecord) (s : SessionState) {moves : List Move}
    (hmoves : ∀ m ∈ moves, m.IsPlain False ∨ m = .dropEngine) :
    let w := ((Play.start catalog config wiring s).run moves).world
    (∀ c ∈ events, c.isOnce = true → announcements c.id w.trace ≤ 1 ∧
      (s.completedEvents.contains c.id = true → announcements c.id w.trace = 0)) ∧
    (∀ m ∈ w.trace, ∀ c, m.happening = .began c → c.event.isOnce = true →
      m.game.state.completedEvents.contains c.event.id = false) ∧
    (∀ m ∈ w.trace, ∀ c ∈ events, c.isOnce = true → m.happening.announces c.id = true →
      m.game.state.completedEvents.contains c.id = true) ∧
    (∀ m older, m :: older <:+ w.trace → ∀ id,
      m.game.state.completedEvents.contains id = true ↔ Recorded events s (m :: older) id) ∧
    ∀ id, w.game.state.completedEvents.contains id = true ↔ Recorded events s w.trace id := by
  intro w
  have hlaw : OnceLaw events s w := by
    refine Play.run_invariant (e := { catalog, config, serial := 0 }) ?_ ?_ hmoves (.inl rfl) rfl
      rfl (.start catalog config wiring)
    · exact fun hpassage => OnceLaw.passage hcatalog hkeeps rfl hpassage
    · exact fun hu _ => hu.noteQuiet (fun _ => rfl) rfl
  refine ⟨hlaw.once, ?_, ?_, hlaw.before, hlaw.now⟩
  · intro m hm c hc honce
    have hlive := hlaw.begun m hm c hc
    rwa [Event.isCompleted, honce, Bool.true_and] at hlive
  · intro m hm c hc honce hann
    -- the moment itself is among those that the record reflects
    obtain ⟨newer, older, heq⟩ := List.append_of_mem hm
    refine (hlaw.before m older ⟨newer, heq.symm⟩ c.id).2 (.inr ⟨⟨c, hc, honce, rfl⟩, ?_⟩)
    rw [OnceLaw.announcements_cons, if_pos hann]
    omega

/-- A greeting that raises a player action, and an answer to it that raises it again. Neither
must fire again. -/
def greeting : List Event :=
  let look : Action := .playerAction (some "look") none
  [{ id := "greeting", trigger := .ofAuthored { type := "talk_to", npc := some "ada" },
     conditions := [], actions := [.deed (.giveXp (some 5)), look], repeatable := false },
   { id := "answer", trigger := .ofAuthored { type := "player_action" },
     conditions := [], actions := [look, .deed (.giveXp (some 5))], repeatable := false }]

/-- Of two greetings the second finds both events recorded. -/
theorem greeting_fires_once : ∃ catalog, Catalog.ofEvents greeting = .ok catalog ∧
    (Receiver.session .park).KeepsRecord ∧
    let w := ((Play.start catalog {} ⟨.session .park, true⟩ {}).run
      [.trigger "talk_to" (.talkedTo "ada"), .occur (.talkedTo "Ada")]).world
    announcements "greeting" w.trace = 1 ∧ announcements "answer" w.trace = 1 ∧
    ∀ id, w.game.state.completedEvents.contains id = true ↔ Recorded greeting {} w.trace id := by
  refine ⟨_, rfl, Receiver.keepsRecord_session .park, by decide, by decide, ?_⟩
  have hmoves : ∀ m ∈ [Move.trigger "talk_to" (.talkedTo "ada"), .occur (.talkedTo "Ada")],
      m.IsPlain False ∨ m = .dropEngine := by
    simp [Move.IsPlain]
  exact (once_events_fire_once rfl {} (Receiver.keepsRecord_session .park) {} hmoves).2.2.2.2

end Narrative
