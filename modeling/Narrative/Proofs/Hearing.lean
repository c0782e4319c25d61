import Narrative.Proofs.Moves

set_option autoImplicit false

/-!
# What is heard of an occurrence

A dispatch takes two things from an occurrence. The trigger type gives the candidates, by its key,
so it may be spelled in many ways, and only the report echoes the spelling
(`Engine.dispatch_retyped`). The payload is shown to the triggers of candidates and to nothing else,
so payloads that no trigger tells apart are answered alike (`Engine.dispatch_congr`).

Once the player stands in a room, a payload that names the room, one that names none and an empty one
cannot be told apart. So there are three ways to report that a room was entered, and they come to the
same (`ways_into_a_room_agree`).
-/

namespace Narrative

/-- Two payloads that no trigger tells apart in a state. -/
def Payload.Indistinct (s : SessionState) (p p' : Payload) : Prop :=
  ∀ (policy : UnknownPolicy) (t : Trigger), t.isMatch policy p' s = t.isMatch policy p s

theorem Payload.Indistinct.trans {s : SessionState} {p p' p'' : Payload} (h : p.Indistinct s p')
    (h' : p'.Indistinct s p'') : p.Indistinct s p'' :=
  fun policy t => (h' policy t).trans (h policy t)

/-- A report with its trigger type echoed in another spelling. -/
def Report.retyped (r : Report) (t : String) : Report := { r with triggerType := t }

namespace Engine

variable {e : Engine} {wiring : Wiring} {reach : Reach} {s : SessionState} {p p' : Payload}

/-- A candidate is decided about alike. -/
theorem rule_congr (h : p.Indistinct s p') :
    e.rule wiring reach s p' = e.rule wiring reach s p := by
  funext ran c w
  have hmatch (w : World) : e.triggerMatches c.event.trigger p' s w =
      e.triggerMatches c.event.trigger p s w := by
    rw [triggerMatches, triggerMatches, h]
  rw [rule, rule]
  simp only [hmatch]

/-- **Payloads that no trigger tells apart** are answered alike. -/
theorem dispatch_congr {w : World} (h : p.Indistinct w.game.state p') (t : String) :
    e.dispatch wiring reach t p' w = e.dispatch wiring reach t p w := by
  -- the snapshot is that of the world in which the occurrence was submitted
  have hrule : e.rule wiring reach (openDispatch w).game.state p' =
      e.rule wiring reach (openDispatch w).game.state p := rule_congr h
  rw [dispatch, dispatch]
  simp only [hrule]

/-- **Spellings of a trigger type** are answered alike, up to the echo. -/
theorem dispatch_retyped {t t' : String} (h : Text.typeKey t' = Text.typeKey t) (p : Payload)
    (w : World) :
    e.dispatch wiring reach t' p w =
      ((e.dispatch wiring reach t p w).1.retyped t', (e.dispatch wiring reach t p w).2) := by
  have hcandidates : e.catalog.candidates t' = e.catalog.candidates t := by
    rw [Catalog.candidates, Catalog.candidates, h]
  rw [dispatch, dispatch, hcandidates]
  split <;> rfl

end Engine

/-! ## Entering a room -/

namespace Payload

variable {s : SessionState} {room : String}

/-- To name the current room is to name none. -/
theorem indistinct_enteredRoom (h : s.currentRoom = some room) :
    Indistinct s (.enteredRoom (some room)) (.enteredRoom none) := by
  intro policy t
  have hroom : t.wantsRoom s none = t.wantsRoom s (some room) := by
    rw [Trigger.wantsRoom, Trigger.wantsRoom, h]
    rfl
  unfold Trigger.isMatch
  cases t.kind with
  | enterRoom => exact hroom
  | _ => rfl

/-- A payload that names no room says nothing at all. -/
theorem indistinct_empty (s : SessionState) : Indistinct s (.enteredRoom none) .empty := by
  intro policy t
  unfold Trigger.isMatch
  cases t.kind <;> rfl

end Payload

/-- The room that the player is moved to is reported under its name, under none, or not at all. -/
theorem Play.move_enteredRoom {p : Play} {e : Engine} (he : p.engine = some e) (room : String) :
    (p.move (.setRoom room)).2.move (.occur (.enteredRoom none)) =
        p.move (.occur (.enteredRoom (some room))) ∧
      (p.move (.setRoom room)).2.move (.trigger "enter_room" .empty) =
        p.move (.occur (.enteredRoom (some room))) := by
  let w := p.world.changeGame (·.enterRoom room)
  have hroom : w.game.state.currentRoom = some room := rfl
  have hunnamed := Payload.indistinct_enteredRoom hroom
  have hempty := hunnamed.trans (Payload.indistinct_empty w.game.state)
  have hnone : e.handle p.wiring "enter_room" (.enteredRoom none) w =
      e.handle p.wiring "enter_room" (.enteredRoom (some room)) w :=
    Engine.dispatch_congr hunnamed "enter_room"
  have hnothing : e.handle p.wiring "enter_room" .empty w =
      e.handle p.wiring "enter_room" (.enteredRoom (some room)) w :=
    Engine.dispatch_congr hempty "enter_room"
  -- in all three cases the engine is asked in the world `w`
  have hnamed : p.move (.occur (.enteredRoom (some room))) =
      (.report (e.handle p.wiring "enter_room" (.enteredRoom (some room)) w).1,
        { p with world := (e.handle p.wiring "enter_room" (.enteredRoom (some room)) w).2 }) := by
    unfold Play.move Play.withEngine
    rw [he]
    rfl
  constructor
  · rw [hnamed, ← hnone]
    unfold Play.move Play.withEngine
    simp only [he]
    rfl
  · rw [hnamed, ← hnothing]
    unfold Play.move Play.withEngine
    simp only [he]
    rfl

/-- **Three ways into a room.** Whatever the play has come to, as long as there is an engine: to
report that the player entered a room by its name, to move the player there and to report that a
room was entered, and to move the player there and to submit the trigger type without any data, all
come to the same play, with the same report, the same calls and journal, the same game and scenes
and the same counts. So no host can tell them apart by what it does afterwards. -/
theorem ways_into_a_room_agree {p : Play} (hengine : p.engine.isSome = true) (room : String)
    (steps : List HostStep) :
    let named := p.proceed (.move (.occur (.enteredRoom (some room))) :: steps)
    let unnamed :=
      p.proceed (.move (.setRoom room) :: .move (.occur (.enteredRoom none)) :: steps)
    let raised :=
      p.proceed (.move (.setRoom room) :: .move (.trigger "enter_room" .empty) :: steps)
    (unnamed.answers = .done :: named.answers ∧ unnamed.taken = named.taken ∧
      unnamed.play = named.play) ∧
    (raised.answers = .done :: named.answers ∧ raised.taken = named.taken ∧
      raised.play = named.play) := by
  obtain ⟨e, he⟩ := Option.isSome_iff_exists.1 hengine
  obtain ⟨hunnamed, hraised⟩ := Play.move_enteredRoom he room
  -- if the second move of a run is the first one of the other, only the answers tell of the detour
  have hdetour : ∀ m, (p.move (.setRoom room)).2.move m =
        p.move (.occur (.enteredRoom (some room))) →
      p.proceed (.move (.setRoom room) :: .move m :: steps) =
        let named := p.proceed (.move (.occur (.enteredRoom (some room))) :: steps)
        { named with answers := .done :: named.answers } := by
    intro m hm
    simp only [Play.proceed, hm]
    rfl
  rw [hdetour _ hunnamed, hdetour _ hraised]
  exact ⟨⟨rfl, rfl, rfl⟩, rfl, rfl, rfl⟩

/-- An event for whoever enters the cellar: the light goes on, and there is something to hear. -/
def creak : Authored.Event where
  id := "creak"
  trigger := { type := "enter_room", roomId := some "cellar" }
  actions := [.mk { type := "toggle_room_state", stateKey := some "light" } [] [] [],
    .mk { type := "player_action", action := some "listen" } [] [] []]

/-- An event for whoever listens. It searches the room that the player stands in. -/
def scratching : Authored.Event where
  id := "scratching"
  trigger := { type := "player_action", action := some "listen" }
  actions := [.mk { type := "unlock_room_search" } [] [] []]

/-- However the cellar is entered, its light goes on and it can be searched. -/
theorem cellar_is_entered_alike : ∃ c, Catalog.ofAuthored [creak, scratching] = .ok c ∧
    let p := Play.start c {} ⟨.session .park, true⟩ {}
    let named := p.proceed [.move (.occur (.enteredRoom (some "cellar"))), .drain]
    let raised :=
      p.proceed [.move (.setRoom "cellar"), .move (.trigger "enter_room" .empty), .drain]
    p.engine.isSome = true ∧ named.play.world.game.progress.roomFlag "cellar" "light" = true ∧
      named.play.world.game.progress.searchableRooms.contains "cellar" = true ∧
      raised.taken = named.taken ∧ raised.play = named.play := by
  refine ⟨_, rfl, rfl, by decide +kernel, by decide +kernel, ?_⟩
  obtain ⟨-, -, htaken, hplay⟩ :=
    @ways_into_a_room_agree (Play.start _ {} ⟨.session .park, true⟩ {}) rfl "cellar" [.drain]
  exact ⟨htaken, hplay⟩

end Narrative
