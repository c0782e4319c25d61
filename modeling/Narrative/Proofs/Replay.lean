import Narrative.Proofs.Journal

set_option autoImplicit false

/-!
# The journal as a script

The journal of a session can be played again (`journal_replays`): the entries that a call to an
engine has added, carried out one after the other on the game as it was before, lead to the
game as it is afterwards. Only the record of fired events and that of tutorials are not
written down, so they are left out of the comparison (`Game.unmarked`). No effect on the game
reads them, so to carry out an effect and to leave them out may be done in either order
(`Game.unmarked_apply`).
-/

namespace Narrative

/-! ## Carrying out a journal -/

/-- The game without the record of fired events and that of tutorials. -/
def Game.unmarked (g : Game) : Game :=
  g.updateState fun s => { s with completedEvents := ∅, tutorials := ∅ }

/-- Carries out an entry: a taking if it was accepted, every other effect as it is. A scene has no
effect on the game by itself, and neither has the announcement of an event. -/
def Game.redo (g : Game) : Entry → Game
  | .effect (.takeItem item quantity) accepted =>
      if accepted then g.apply (.takeItem item quantity) else g
  | .effect (.eventCompleted _) _ => g
  | .effect x _ => g.apply x
  | .scene .. => g

/-- Carries out a journal, oldest entry first. -/
def Game.replay (g : Game) (entries : List Entry) : Game :=
  entries.foldl Game.redo g

namespace Game

theorem replay_append (g : Game) (entries later : List Entry) :
    g.replay (entries ++ later) = (g.replay entries).replay later :=
  List.foldl_append

theorem unmarked_addItem (g : Game) (item : String) (quantity : UInt32) :
    (g.addItem item quantity).unmarked = g.unmarked.addItem item quantity := rfl

/-- A reward reads none of the two records. -/
theorem unmarked_grant (g : Game) (r : Reward) : (g.grant r).unmarked = g.unmarked.grant r := by
  have hitems : ∀ (g : Game) (items : List RewardItem),
      (items.foldl (fun g i => g.addItem i.item i.quantity) g).unmarked =
        items.foldl (fun g i => g.addItem i.item i.quantity) g.unmarked := by
    intro g items
    induction items generalizing g with
    | nil => rfl
    | cons i rest ih =>
        rw [List.foldl_cons, List.foldl_cons, ih, unmarked_addItem]
  rw [grant, grant]
  split
  · rfl
  · exact hitems _ _

/-- No effect reads one of the two records. -/
theorem unmarked_apply (g : Game) (x : Effect) : (g.apply x).unmarked = g.unmarked.apply x := by
  cases x with
  | grantReward r => exact unmarked_grant g r
  | takeItem item n =>
      have hinventory : g.unmarked.state.inventory = g.state.inventory := rfl
      simp only [apply, hinventory]
      split <;> rfl
  | failQuest quest reason =>
      simp only [apply]
      split <;> rfl
  | advanceQuestStage quest stage => cases quest <;> cases stage <;> rfl
  | updateQuestTask quest task => cases quest <;> cases task <;> rfl
  | _ => rfl

/-- To carry out the entry of an effect does what the effect did. -/
theorem redo_effect (g : Game) (x : Effect) : g.redo (.effect x (g.accepts x)) = g.apply x := by
  cases x with
  | takeItem item n =>
      cases h : g.accepts (.takeItem item n) with
      | true => rfl
      | false => exact (apply_of_not_accepts h).symm
  | _ => rfl

theorem unmarked_redo (g : Game) (entry : Entry) :
    (g.redo entry).unmarked = g.unmarked.redo entry := by
  cases entry with
  | scene => rfl
  | effect x accepted =>
      cases x with
      | takeItem item n =>
          cases accepted with
          | true => exact unmarked_apply g (.takeItem item n)
          | false => rfl
      | eventCompleted => rfl
      | _ => exact unmarked_apply g _

theorem unmarked_replay (g : Game) (entries : List Entry) :
    (g.replay entries).unmarked = g.unmarked.replay entries := by
  induction entries generalizing g with
  | nil => rfl
  | cons entry rest ih => exact (ih (g.redo entry)).trans (by rw [unmarked_redo]; rfl)

theorem unmarked_record (event : Event) (g : Game) : (event.record g).unmarked = g.unmarked := by
  rw [Event.record]
  split <;> rfl

theorem unmarked_seeTutorial (tutorial : Option String) (g : Game) :
    (g.seeTutorial tutorial).unmarked = g.unmarked := by
  cases tutorial <;> rfl

end Game

/-! ## Runs over a session -/

/-- What happened between two worlds has changed the game by the calls in it alone: they lead from
the one game to the other, and those before a moment to the game as it was then. -/
structure ReplayedBy (new : List Moment) (u v : World) : Prop where
  trace : v.trace = new ++ u.trace
  game : v.game.unmarked = (u.game.replay (callsIn new)).unmarked
  moments : ∀ m older, m :: older <:+ new →
    m.game.unmarked = (u.game.replay (callsIn older)).unmarked

/-- The game was changed by calls alone. -/
def Replayed (u v : World) : Prop := ∃ new, ReplayedBy new u v

namespace Replayed

variable {u v w : World}

theorem trans (h : Replayed u v) (h' : Replayed v w) : Replayed u w := by
  obtain ⟨new, htrace, hgame, hmoments⟩ := h
  obtain ⟨new', htrace', hgame', hmoments'⟩ := h'
  -- a later stretch is carried out on what the earlier one has left
  have hlater : ∀ entries, (v.game.replay entries).unmarked =
      (u.game.replay (callsIn new ++ entries)).unmarked := by
    intro entries
    rw [Game.unmarked_replay, hgame, ← Game.unmarked_replay, ← Game.replay_append]
  refine ⟨new' ++ new, ?_, ?_, forall_suffix_append ?_ hmoments⟩
  · rw [htrace', htrace, List.append_assoc]
  · rw [hgame', hlater, callsIn_append]
  · intro m older hm
    rw [hmoments' m older hm, hlater, callsIn_append]

/-- Nothing happens, but for a change that leaves all but the records alone. -/
theorem same (hgame : v.game.unmarked = u.game.unmarked) (htrace : v.trace = u.trace) :
    Replayed u v := by
  refine ⟨[], htrace, hgame, ?_⟩
  intro m older hm
  cases List.suffix_nil.1 hm

/-- One thing happens. -/
theorem single {m : Moment} (htrace : v.trace = m :: u.trace) (hm : m.game = u.game)
    (hgame : v.game.unmarked = (u.game.replay (callsIn [m])).unmarked) : Replayed u v := by
  refine ⟨[m], htrace, hgame, forall_suffix_cons (congrArg Game.unmarked hm) ?_⟩
  intro m older hm
  cases List.suffix_nil.1 hm

theorem settle (w : World) (wiring : Wiring) (x : Effect) : Replayed w (w.settle wiring x) := by
  obtain ⟨journal, hsettle⟩ := w.exists_settle wiring x
  rw [hsettle]
  refine single rfl rfl ?_
  rw [callsIn_cons_called]
  exact congrArg Game.unmarked (w.game.redo_effect x).symm

/-- **Everything that happens over a session has come about by the calls that were made.** A call for a
scene has no effect by itself. -/
theorem tracks (wiring : Wiring) :
    TraceTracks wiring (fun f => ∀ g, (f g).unmarked = g.unmarked) Replayed where
  trans := trans
  same hgame htrace := same (congrArg Game.unmarked hgame) htrace
  noted w x hx := by
    refine single rfl rfl ?_
    rw [callsIn_cons_of_none hx]
    rfl
  arranged _ _ hf := same (hf _) rfl
  called w _ _ := World.settleAll_of (fun _ => same rfl rfl) trans
    (fun x _ w => settle w wiring x) w
  scene _ _ _ := single rfl rfl rfl
  recorded := Game.unmarked_record
  seen := Game.unmarked_seeTutorial

end Replayed

/-- The game was changed by the calls alone that were added to the journal. -/
def World.ReplaysTo (u v : World) : Prop :=
  ∃ new, v.journal = u.journal ++ callsIn new ∧ ReplayedBy new u v

/-- What is recorded exactly and has come about by calls is replayed by the journal. -/
theorem Replayed.replaysTo {screen : Screen} {u v : World} (h : Replayed u v)
    (hexact : Exact ⟨.session screen, true⟩ screen u v) : u.ReplaysTo v := by
  obtain ⟨new, hnew⟩ := h
  exact ⟨new, hexact.journal_eq hnew.trace, hnew⟩

/-- **The journal replays what an engine has done to the game.** Whatever an engine is asked for
over a session, the entries that were added to the journal, carried out in order on the game as it
was before, lead to the game as it is afterwards, but for the records of fired events and of
tutorials; and at each moment on the way, the entries written so far lead to the game as it was
then. The same goes for a scene that the host finishes, and for a token that it resumes. -/
theorem journal_replays (e : Engine) (screen : Screen) (w : World) :
    let wiring : Wiring := ⟨.session screen, true⟩
    (∀ t payload, w.ReplaysTo (e.handle wiring t payload w).2) ∧
    (∀ o : Occurrence, (o.prepare w).ReplaysTo (e.report wiring o w).2) ∧
    (∀ actions s, w.ReplaysTo (e.execute wiring actions s w).2) ∧
    (∀ actions, w.ReplaysTo (e.perform wiring actions w).2) ∧
    ∀ engines, let p : Play := ⟨some e, wiring, w, engines⟩
      (∀ token, w.ReplaysTo (p.resume token w)) ∧ w.ReplaysTo p.finishScene.2 := by
  intro wiring
  have exact : SessionTracks wiring (fun _ => True) (Exact wiring screen) := Exact.tracks rfl
  have replayed := (Replayed.tracks wiring).session
  have hsession : wiring.receiver = .session screen := rfl
  have hhandle : ∀ t payload (w : World), w.ReplaysTo (e.handle wiring t payload w).2 := by
    intro t payload w
    have hexact := exact.handle hsession e t payload w
    exact (replayed.handle hsession e t payload w).replaysTo hexact
  have hexecute : ∀ actions s, w.ReplaysTo (e.execute wiring actions s w).2 := by
    intro actions s
    have hexact := exact.execute hsession e actions s w
    exact (replayed.execute hsession e actions s w).replaysTo hexact
  refine ⟨fun t payload => hhandle t payload w, fun o => hhandle _ _ _, hexecute,
    fun actions => hexecute actions _, ?_⟩
  intro engines p
  constructor
  · intro token
    have hexact : Exact wiring screen w (p.resume token w) := exact.play_resume hsession token w
    exact Replayed.replaysTo (replayed.play_resume hsession token w) hexact
  · have hexact : Exact wiring screen w p.finishScene.2 := exact.finishScene hsession
    exact Replayed.replaysTo (replayed.finishScene hsession) hexact

end Narrative
