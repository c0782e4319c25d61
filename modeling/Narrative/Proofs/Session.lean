import Narrative.Proofs.Moves
import Narrative.Proofs.Parallel

set_option autoImplicit false

/-!
# Runs over a session

A session does what its screen tells it to: an effect is one call, applied to the game at once
(`World.perform_session`), and the only token that is resumed during a call is that of the
scene in hand. So a relation between worlds holds of everything an engine does over a session
if it holds of the few things that such a run consists of (`SessionLaw`). If it reads the game,
the journal and the trace only, it is enough to know that it holds of what is called for, and
then it holds of what the host does as well (`SessionTracks`). Without the journal a scene is no
more than the call for it (`TraceTracks`). What an engine calls for in one go counts as one step,
since a deed may set right with its second call what the first has upset (`CalledTogether`).

What was called for is read off the trace: `callsIn` lists the calls in the order they were
made, each with its answer, and `scenesIn` the scenes among them.
-/

namespace Narrative

/-! ## What a trace tells of the calls -/

/-- The entry that a call deserves. -/
def Happening.entry? : Happening → Option Entry
  | .called entry => some entry
  | _ => none

/-- The scene that an entry is about. -/
def Entry.scene? : Entry → Option SceneRequest
  | .scene request _ => some request
  | .effect .. => none

/-- The calls in a trace, oldest first. -/
def callsIn (trace : List Moment) : List Entry :=
  (trace.filterMap (·.happening.entry?)).reverse

/-- The scenes asked for in a trace, oldest first. -/
def scenesIn (trace : List Moment) : List SceneRequest :=
  (callsIn trace).filterMap Entry.scene?

@[simp] theorem callsIn_nil : callsIn [] = [] := rfl

@[simp] theorem scenesIn_nil : scenesIn [] = [] := rfl

@[simp] theorem callsIn_append (new older : List Moment) :
    callsIn (new ++ older) = callsIn older ++ callsIn new := by
  simp [callsIn]

@[simp] theorem scenesIn_append (new older : List Moment) :
    scenesIn (new ++ older) = scenesIn older ++ scenesIn new := by
  simp [scenesIn]

theorem callsIn_cons_called (entry : Entry) (g : Game) (depth : UInt32) (older : List Moment) :
    callsIn (⟨.called entry, g, depth⟩ :: older) = callsIn older ++ [entry] := by
  simp [callsIn, Happening.entry?]

theorem callsIn_cons_of_none {x : Happening} (h : x.entry? = none) (g : Game)
    (depth : UInt32) (older : List Moment) : callsIn (⟨x, g, depth⟩ :: older) = callsIn older := by
  simp [callsIn, h]

theorem scenesIn_cons_scene (request : SceneRequest) (answer : Playback) (g : Game)
    (depth : UInt32) (older : List Moment) :
    scenesIn (⟨.called (.scene request answer), g, depth⟩ :: older) = scenesIn older ++ [request] := by
  simp [scenesIn, callsIn_cons_called, Entry.scene?]

theorem scenesIn_cons_effect (x : Effect) (accepted : Bool) (g : Game) (depth : UInt32)
    (older : List Moment) : scenesIn (⟨.called (.effect x accepted), g, depth⟩ :: older) = scenesIn older := by
  simp [scenesIn, callsIn_cons_called, Entry.scene?]

theorem scenesIn_cons_of_none {x : Happening} (h : x.entry? = none) (g : Game)
    (depth : UInt32) (older : List Moment) : scenesIn (⟨x, g, depth⟩ :: older) = scenesIn older := by
  rw [scenesIn, callsIn_cons_of_none h, scenesIn]

/-! ## What a session does during a call -/

/-- An effect on a session: it is noted, applied to the game, and entered into the journal. -/
def World.settle (w : World) (wiring : Wiring) (x : Effect) : World :=
  ((w.note (.called (.effect x (w.game.accepts x)))).changeGame (·.apply x)).log wiring
    (.effect x (w.game.accepts x))

/-- To settle an effect is to call for it and to apply it. -/
theorem World.exists_settle (w : World) (wiring : Wiring) (x : Effect) :
    ∃ journal, w.settle wiring x =
      { (w.note (.called (.effect x (w.game.accepts x)))).changeGame (·.apply x) with
        journal := journal } :=
  World.exists_log _ wiring _

@[simp] theorem World.game_settle (w : World) (wiring : Wiring) (x : Effect) :
    (w.settle wiring x).game = w.game.apply x := by
  obtain ⟨journal, hsettle⟩ := w.exists_settle wiring x
  rw [hsettle]
  rfl

@[simp] theorem World.depth_settle (w : World) (wiring : Wiring) (x : Effect) :
    (w.settle wiring x).depth = w.depth := by
  obtain ⟨journal, hsettle⟩ := w.exists_settle wiring x
  rw [hsettle]
  rfl

@[simp] theorem World.trace_settle (w : World) (wiring : Wiring) (x : Effect) :
    (w.settle wiring x).trace =
      ⟨.called (.effect x (w.game.accepts x)), w.game, w.depth⟩ :: w.trace := by
  obtain ⟨journal, hsettle⟩ := w.exists_settle wiring x
  rw [hsettle]
  rfl

/-- It makes no difference whether an entry is written before the game changes or after. -/
theorem World.log_changeGame (w : World) (wiring : Wiring) (entry : Entry) (f : Game → Game) :
    (w.log wiring entry).changeGame f = (w.changeGame f).log wiring entry := by
  simp only [World.log]
  split <;> rfl

/-- The only change that a screen makes to the game is to count a tutorial as seen. -/
theorem Screen.eq_seeTutorial_of_change {screen : Screen} {token : Nat} {request : SceneRequest}
    {f : Game → Game} (h : .change f ∈ screen.acts token request) :
    f = (·.seeTutorial request.tutorial?) := by
  cases screen with
  | park => simp [Screen.acts] at h
  | finishAtOnce =>
      simp only [Screen.acts, List.mem_cons, List.not_mem_nil, or_false, reduceCtorEq] at h
      exact Act.change.inj h
  | entrust handling =>
      simp only [Screen.acts, List.mem_append, List.mem_replicate] at h
      rcases h with h | ⟨-, h⟩
      · split at h <;> simp at h
      · cases h

/-- An effect on a session is accepted if the game accepts it, and is settled. -/
theorem World.perform_session {wiring : Wiring} {screen : Screen}
    (hsession : wiring.receiver = .session screen) (revive : Nat → World → World) (x : Effect)
    (w : World) : w.perform wiring revive x = (w.game.accepts x, w.settle wiring x) := by
  have haccepts : wiring.receiver.accepts w x = w.game.accepts x := by
    rw [hsession]
    cases x <;> rfl
  have hacts : ∀ v : World, v.carryOut revive (wiring.receiver.acts w (.effect x)) =
      v.changeGame (·.apply x) := by
    rw [hsession]
    exact fun _ => rfl
  -- a taking is written down after it is carried out, everything else before
  cases x <;> simp only [World.perform, hacts, haccepts, World.settle, World.log_changeGame]

/-- Effects on a session that are called for one right after the other. -/
def World.settleAll (w : World) (wiring : Wiring) (effects : List Effect) : World :=
  effects.foldl (fun w x => w.settle wiring x) w

theorem World.performAll_session {wiring : Wiring} {screen : Screen}
    (hsession : wiring.receiver = .session screen) (revive : Nat → World → World)
    (effects : List Effect) (w : World) :
    (w.performAll wiring revive effects).2 = w.settleAll wiring effects := by
  induction effects generalizing w with
  | nil => rfl
  | cons x rest ih =>
      simp only [World.performAll, World.perform_session hsession]
      exact ih _

/-- What holds of each effect, and of one change after another, holds of several effects. -/
theorem World.settleAll_of {wiring : Wiring} {P : World → World → Prop} (hrefl : ∀ w, P w w)
    (htrans : ∀ {u v w}, P u v → P v w → P u w) {effects : List Effect}
    (hsettle : ∀ x ∈ effects, ∀ w, P w (w.settle wiring x)) (w : World) :
    P w (w.settleAll wiring effects) := by
  induction effects generalizing w with
  | nil => exact hrefl w
  | cons x rest ih =>
      have hrest : ∀ y ∈ rest, ∀ w, P w (w.settle wiring y) :=
        fun y hy => hsettle y (List.mem_cons_of_mem x hy)
      exact htrans (hsettle x List.mem_cons_self w) (ih hrest _)

/-- What an engine calls for in one go: the effects of a deed, or the announcement of an event. -/
inductive CalledTogether : List Effect → Prop where
  | deed (d : Deed) : CalledTogether d.effects
  | announcement (event : String) : CalledTogether [.eventCompleted event]

/-! ## What an engine does over a session -/

/-- A relation between worlds that obeys what an engine does over a session: it counts, opens and
closes dispatches, notes this and that, records events, and calls for effects and scenes. -/
structure SessionLaw (e : Engine) (wiring : Wiring) (P : World → World → Prop) : Prop where
  trans : ∀ {u v w : World}, P u v → P v w → P u w
  counted : ∀ (w : World) {f : Counters → Counters},
    (∀ n, (f n).continuationsResumed = n.continuationsResumed) → P w (w.count f)
  guarded : ∀ (w : World) depth inFlight, P w (w.guard depth inFlight)
  noted : ∀ (w : World) {x : Happening}, x.entry? = none →
    (∀ token outcome, x ≠ .resumed token outcome) → P w (w.note x)
  recorded : ∀ (w : World) (event : Event), P w (w.changeGame event.record)
  called : ∀ (w : World) {effects : List Effect}, CalledTogether effects →
    P w (w.settleAll wiring effects)
  scene : ∀ (revive : Nat → World → World) (request : SceneRequest) {sequel : Sequel},
    sequel.engine = e.serial → ∀ {run : World → World}, (∀ w, P w (run w)) →
      ∀ w : World, P w (w.runScene wiring revive request sequel run)

namespace SessionLaw

variable {e : Engine} {wiring : Wiring} {screen : Screen} {P : World → World → Prop}
variable (obeys : SessionLaw e wiring P) (hsession : wiring.receiver = .session screen)

include obeys hsession

theorem announce (revive : Nat → World → World) (event : Event) (w : World) :
    P w (Engine.announce wiring revive event w) := by
  unfold Engine.announce
  simp only
  refine obeys.trans ?_ (obeys.counted _ fun _ => rfl)
  split
  · rw [World.perform_session hsession]
    exact obeys.trans (obeys.recorded w event) (obeys.called _ (.announcement event.id))
  · exact obeys.recorded w event

/-- **What holds of calls and of small changes holds of everything that an engine does.** -/
theorem law (base : List Nat) : Law e wiring base fun _ u _ v => P u v where
  stay w := obeys.guarded w w.depth w.inFlight
  andThen _ _ := obeys.trans
  tally w _ hf := obeys.counted w fun n => (hf n).1
  deed _ d w := by
    rw [World.performAll_session hsession]
    exact obeys.called w (.deed d)
  scene _ hrun request _ w hengine :=
    obeys.scene _ request hengine (fun w => (hrun.lawful w).elim fun _ h => h) w
  resumption hfree := by
    rw [hsession] at hfree
    exact (hfree (Receiver.isDirect_session screen)).elim
  stall w := obeys.noted w rfl fun _ _ h => Happening.noConfusion h
  refusal {_ w} _ := by
    have hnoted : P w (w.note (.dispatched w.depth w.inFlight false)) :=
      obeys.noted w rfl fun _ _ h => Happening.noConfusion h
    exact obeys.trans hnoted (obeys.counted _ fun _ => rfl)
  nested {_ u v _} _ _ h := by
    have hnoted : P u (u.note (.dispatched u.depth u.inFlight true)) :=
      obeys.noted u rfl fun _ _ h => Happening.noConfusion h
    have hopened : P u (Engine.openDispatch u) :=
      obeys.trans (obeys.trans hnoted (obeys.guarded _ (u.depth + 1) u.inFlight))
        (obeys.counted _ fun _ => rfl)
    exact obeys.trans (obeys.trans hopened h)
      (obeys.guarded v (if v.depth = 0 then 0 else v.depth - 1) v.inFlight)
  flight {_ _ _ c w v _} _ _ _ _ _ _ h := by
    have hnoted : P w (w.note (.began c)) := obeys.noted w rfl fun _ _ h => Happening.noConfusion h
    have hbegan : P w (Engine.begin c w) :=
      obeys.trans hnoted (obeys.guarded _ w.depth (c.position :: w.inFlight))
    have hlanded : P w (v.land c.position) := obeys.trans (obeys.trans hbegan h)
      (obeys.guarded v v.depth (v.inFlight.erase c.position))
    split
    · exact obeys.trans hlanded (obeys.announce hsession _ c.event _)
    · exact hlanded
  mute hfree := by
    rw [hsession] at hfree
    exact (hfree (Receiver.isDirect_session screen)).elim

theorem handle (t : String) (payload : Payload) (w : World) :
    P w (e.handle wiring t payload w).2 :=
  ((obeys.law hsession w.inFlight).handle rfl t payload).law

theorem execute (actions : List Action) (s : SessionState) (w : World) :
    P w (e.execute wiring actions s w).2 :=
  ((obeys.law hsession w.inFlight).execute actions s w).law

/-- What follows a scene, when the host resumes its token. -/
theorem continueWith (actions : List Action) (w : World) :
    P w (e.continueWith wiring (e.outlets wiring) actions w) :=
  obeys.execute hsession actions w.game.state w

end SessionLaw

/-! ## Relations that read what is called for -/

/-- A relation between worlds that obeys all that happens over a session, where the game may change
by itself in the ways that `K` allows. It reads nothing of a world but the game, the scenes the
tokens are for, the journal and the trace. -/
structure SessionTracks (wiring : Wiring) (K : (Game → Game) → Prop) (P : World → World → Prop) :
    Prop where
  trans : ∀ {u v w : World}, P u v → P v w → P u w
  same : ∀ {u v : World}, v.game = u.game →
    v.tokens.map (·.request) = u.tokens.map (·.request) → v.journal = u.journal →
    v.trace = u.trace → P u v
  noted : ∀ (w : World) {x : Happening}, x.entry? = none →
    (∀ token outcome, x = .resumed token outcome → token < w.tokens.length) → P w (w.note x)
  arranged : ∀ (w : World) {f : Game → Game}, K f → P w (w.changeGame f)
  called : ∀ (w : World) {effects : List Effect}, CalledTogether effects →
    P w (w.settleAll wiring effects)
  asked : ∀ {w v : World} {request : SceneRequest} {sequel : Option Sequel},
    P (w.ask wiring request (wiring.receiver.answer w request) sequel) v →
      P w (v.fillIn wiring w.journal.length request.kind (wiring.receiver.answer w request))
  recorded : ∀ event : Event, K event.record
  seen : ∀ tutorial : Option String, K (·.seeTutorial tutorial)

namespace SessionTracks

variable {wiring : Wiring} {screen : Screen} {K : (Game → Game) → Prop}
variable {P : World → World → Prop} (track : SessionTracks wiring K P)

include track

theorem refl (w : World) : P w w := track.same rfl rfl rfl rfl

theorem count (w : World) (f : Counters → Counters) : P w (w.count f) := track.same rfl rfl rfl rfl

/-- To use up a token leaves its scene as it was. -/
theorem spend (w : World) (token : Nat) (status : TokenStatus) : P w (w.spend token status) := by
  have hscene : ∀ t : SceneToken, { t with status }.request = t.request := fun _ => rfl
  exact track.same rfl (map_modify_of_eq hscene w.tokens token) rfl rfl

/-- A resumption, if what runs is tracked. -/
theorem resume {follow : Sequel → Option (World → World)}
    (hrun : ∀ {q run}, follow q = some run → ∀ w, P w (run w)) (token : Nat) (w : World) :
    P w (w.resume follow token) := by
  have hknown : ∀ {v : World} {t : SceneToken} outcome, v.tokens[token]? = some t →
      P v (v.note (.resumed token outcome)) := by
    intro v t outcome ht
    refine track.noted v rfl fun token' outcome' h => ?_
    obtain ⟨rfl, -⟩ := Happening.resumed.inj h
    exact (List.getElem?_eq_some_iff.1 ht).1
  have hspent : ∀ {t} status outcome, w.tokens[token]? = some t →
      P w ((w.spend token status).note (.resumed token outcome)) := by
    intro t status outcome ht
    refine track.trans (track.spend w token status) (hknown (t := { t with status }) outcome ?_)
    simp [World.spend, ht]
  have hresumes := w.resumes follow token
  generalize w.resume follow token = v at hresumes ⊢
  cases hresumes with
  | unknown => exact track.refl w
  | lapsed ht => exact hspent .lapsed .lapsed ht
  | continued ht _ _ hfollow =>
      exact track.trans (track.trans (hspent .resumed .continued ht) (track.count _ _))
        (hrun hfollow _)
  | ignored ht => exact hknown .ignored ht

/-- What a screen does with a scene, if the resumptions of its token are tracked. -/
theorem carryOut {resume : Nat → World → World} {acts : List Act}
    (hchange : ∀ f, .change f ∈ acts → K f)
    (hresume : ∀ token, .resume token ∈ acts → ∀ w, P w (resume token w)) (w : World) :
    P w (w.carryOut resume acts) := by
  induction acts generalizing w with
  | nil => exact track.refl w
  | cons a rest ih =>
      have hrest : ∀ v : World, P v (v.carryOut resume rest) :=
        ih (fun f h => hchange f (List.mem_cons_of_mem a h))
          (fun token h => hresume token (List.mem_cons_of_mem a h))
      refine track.trans ?_ (hrest (a.carry resume w))
      cases a with
      | change f => exact track.arranged w (hchange f List.mem_cons_self)
      | park | keep => exact track.same rfl rfl rfl rfl
      | resume token => exact hresume token List.mem_cons_self w

section Calls

variable (hsession : wiring.receiver = .session screen)

include hsession

/-- A scene, if the resumptions of its token are tracked. -/
theorem playScene (revive : Nat → World → World) (request : SceneRequest)
    (sequel : Option Sequel) {own : World → World} (hown : ∀ w, P w (own w)) (w : World) :
    P w (w.playScene wiring revive request sequel own).2 := by
  have hacts : ∀ {a}, a ∈ wiring.receiver.acts w (.scene w.tokens.length request) →
      a ∈ screen.acts w.tokens.length request := by
    rw [hsession]
    exact fun h => h
  have hdirect : wiring.receiver.IsDirect := hsession ▸ Receiver.isDirect_session screen
  have hasked : P (w.ask wiring request (wiring.receiver.answer w request) sequel)
      ((w.ask wiring request (wiring.receiver.answer w request) sequel).carryOut
        (fun t v => if t = w.tokens.length then own v else revive t v)
        (wiring.receiver.acts w (.scene w.tokens.length request))) := by
    refine track.carryOut (fun f hf => ?_) (fun token htoken v => ?_) _
    · rw [Screen.eq_seeTutorial_of_change (hacts hf)]
      exact track.seen _
    -- a session resumes the token of the scene and no other
    · obtain ⟨_, hcall⟩ := hdirect htoken
      obtain ⟨rfl, -⟩ := Call.scene.inj hcall
      rw [if_pos rfl]
      exact hown v
  exact track.asked hasked

/-- A scene whose sequel is tracked. -/
theorem runScene (revive : Nat → World → World) (request : SceneRequest) (sequel : Sequel)
    {run : World → World} (hrun : ∀ w, P w (run w)) (w : World) :
    P w (w.runScene wiring revive request sequel run) := by
  have hown : ∀ v, P v (v.resume (fun _ => some run) w.tokens.length) :=
    track.resume (fun h w => Option.some.inj h ▸ hrun w) _
  have hplayed := track.playScene hsession revive request (some sequel) hown w
  have hreturned : ∀ v : World, P v (v.note (.returned w.tokens.length)) :=
    fun v => track.noted v rfl fun _ _ h => Happening.noConfusion h
  unfold World.runScene
  simp only
  split
  · exact track.trans (track.trans hplayed (hown _)) (hreturned _)
  · exact track.trans hplayed (hreturned _)

/-- **Everything that an engine does over a session is tracked.** -/
theorem law (e : Engine) : SessionLaw e wiring P where
  trans := track.trans
  counted w _ _ := track.count w _
  guarded _ _ _ := track.same rfl rfl rfl rfl
  noted w _ hx hquiet := track.noted w hx fun token outcome h => absurd h (hquiet token outcome)
  recorded w event := track.arranged w (track.recorded event)
  called := track.called
  scene revive request _ _ _ hrun w := track.runScene hsession revive request _ hrun w

/-- What the host asks an engine for is tracked. -/
theorem handle (e : Engine) (t : String) (payload : Payload) (w : World) :
    P w (e.handle wiring t payload w).2 :=
  (track.law hsession e).handle hsession t payload w

theorem execute (e : Engine) (actions : List Action) (s : SessionState) (w : World) :
    P w (e.execute wiring actions s w).2 :=
  (track.law hsession e).execute hsession actions s w

end Calls

end SessionTracks

/-- A relation between worlds that reads the game and the trace only, and obeys what is added to the
trace and what changes the game. -/
structure TraceTracks (wiring : Wiring) (K : (Game → Game) → Prop) (P : World → World → Prop) :
    Prop where
  trans : ∀ {u v w : World}, P u v → P v w → P u w
  same : ∀ {u v : World}, v.game = u.game → v.trace = u.trace → P u v
  noted : ∀ (w : World) {x : Happening}, x.entry? = none → P w (w.note x)
  arranged : ∀ (w : World) {f : Game → Game}, K f → P w (w.changeGame f)
  called : ∀ (w : World) {effects : List Effect}, CalledTogether effects →
    P w (w.settleAll wiring effects)
  scene : ∀ (w : World) (request : SceneRequest) (answer : Playback),
    P w (w.note (.called (.scene request answer)))
  recorded : ∀ event : Event, K event.record
  seen : ∀ tutorial : Option String, K (·.seeTutorial tutorial)

/-- To such a relation a scene is no more than the call for it: the token does not matter, nor does
what is written into the journal. -/
theorem TraceTracks.session {wiring : Wiring} {K : (Game → Game) → Prop} {P : World → World → Prop}
    (track : TraceTracks wiring K P) : SessionTracks wiring K P where
  trans := track.trans
  same hgame _ _ htrace := track.same hgame htrace
  noted w _ hx _ := track.noted w hx
  arranged := track.arranged
  called := track.called
  asked {w v request sequel} h := by
    obtain ⟨journal, hask⟩ :=
      w.exists_ask wiring request (wiring.receiver.answer w request) sequel
    obtain ⟨journal', hfill⟩ := v.exists_fillIn wiring w.journal.length request.kind
      (wiring.receiver.answer w request)
    have hcalled : P w (w.ask wiring request (wiring.receiver.answer w request) sequel) := by
      rw [hask]
      exact track.trans (track.scene w request _) (track.same rfl rfl)
    rw [hfill]
    exact track.trans (track.trans hcalled h) (track.same rfl rfl)
  recorded := track.recorded
  seen := track.seen

/-! ## Moves of the host -/

/-- Only to rewire a play changes its wiring. -/
theorem Play.wiring_move {p : Play} {m : Move} (hm : ∀ wiring, m ≠ .rewire wiring) :
    (p.move m).2.wiring = p.wiring := by
  have hengine : ∀ act, (p.withEngine act).2.wiring = p.wiring := by
    intro act
    unfold Play.withEngine
    split <;> rfl
  have hdropped : p.dropEngine.wiring = p.wiring := by
    unfold Play.dropEngine
    split <;> rfl
  cases m with
  | rewire wiring => exact absurd rfl (hm wiring)
  | trigger | occur | perform | execute => exact hengine _
  | resumeKept index =>
      unfold Play.move
      simp only
      split <;> rfl
  | dropEngine => rw [Play.move_dropEngine, hdropped]
  | restart catalog config => exact hdropped
  | _ => rfl

/-- The change that a move makes to the game by itself. -/
def Move.change? : Move → Option (Game → Game)
  | .occur (.enteredRoom (some room)) => some (·.enterRoom room)
  | .setRoom room => some (·.enterRoom room)
  | .setState state => some ({ · with state })
  | .markEvent event => some (·.markEvent event)
  | _ => none

namespace SessionTracks

variable {p : Play} {screen : Screen} {K : (Game → Game) → Prop} {P : World → World → Prop}
variable (track : SessionTracks p.wiring K P) (hsession : p.wiring.receiver = .session screen)

include track

theorem withEngine {act : Engine → World → Answer × World}
    (hact : ∀ e, P p.world (act e p.world).2) : P p.world (p.withEngine act).2.world := by
  unfold Play.withEngine
  split
  · exact hact _
  · exact track.refl _

theorem dropEngine : P p.world p.dropEngine.world := by
  unfold Play.dropEngine
  split
  · exact track.noted _ rfl fun _ _ h => Happening.noConfusion h
  · exact track.refl _

include hsession

theorem play_resume (token : Nat) (w : World) : P w (p.resume token w) := by
  refine track.resume (fun {q run} hfollow w => ?_) token w
  obtain ⟨e, -, hrun⟩ := Option.bind_eq_some_iff.1 hfollow
  obtain ⟨-, rfl⟩ := Engine.follow_eq_some_iff.1 hrun
  exact track.execute hsession e q.actions w.game.state w

theorem finishScene : P p.world p.finishScene.2 := by
  unfold Play.finishScene
  split
  · exact track.refl _
  · next token rest _ =>
      have hpop : P p.world { p.world with queue := rest } := track.same rfl rfl rfl rfl
      simp only
      split
      · exact track.trans (track.trans hpop (track.arranged _ (track.seen _)))
          (track.play_resume hsession _ _)
      · exact hpop

/-- **Every move is tracked** whose own change to the game is allowed, and whose own effect, if it asks
for one, is tracked. -/
theorem move {m : Move} (hm : ∀ f, m.change? = some f → K f)
    (heffect : ∀ x, m = .effect x → P p.world (p.world.settle p.wiring x)) :
    P p.world (p.move m).2.world := by
  cases m with
  | trigger t payload => exact track.withEngine fun e => track.handle hsession e t payload _
  | occur o =>
      have ho : P p.world (o.prepare p.world) := by
        unfold Occurrence.prepare
        split
        · exact track.arranged _ (hm _ rfl)
        · exact track.refl _
      exact track.withEngine fun e => track.trans ho (track.handle hsession e _ _ _)
  | perform actions => exact track.withEngine fun e => track.execute hsession e actions _ _
  | execute actions s => exact track.withEngine fun e => track.execute hsession e actions s _
  | finishScene => exact track.finishScene hsession
  | resumeKept index =>
      unfold Play.move
      simp only
      split
      · exact track.play_resume hsession _ _
      · exact track.refl _
  | rewire wiring => exact track.refl _
  | dropEngine =>
      rw [Play.move_dropEngine]
      exact track.dropEngine
  | restart catalog config =>
      exact track.trans track.dropEngine (track.same rfl rfl rfl rfl)
  | setState | setRoom | markEvent => exact track.arranged _ (hm _ rfl)
  | effect x =>
      show P p.world (p.world.perform p.wiring p.resume x).2
      rw [World.perform_session hsession]
      exact heffect x rfl
  | scene request =>
      exact track.playScene hsession _ request none (fun w => track.play_resume hsession _ w) _

end SessionTracks

/-- **Every run is tracked** in which the host keeps to the session, and in which its own changes and
effects are allowed, if it makes no difference that the journal is read. -/
theorem SessionTracks.proceed {p : Play} {wiring : Wiring} {screen : Screen}
    {K : (Game → Game) → Prop} {P : World → World → Prop} (track : SessionTracks wiring K P)
    (hsession : wiring.receiver = .session screen)
    (hdrained : ∀ w : World, P w { w with journal := [] }) {steps : List HostStep}
    (hwired : ∀ wiring, .move (.rewire wiring) ∉ steps)
    (hchange : ∀ m, .move m ∈ steps → ∀ f, m.change? = some f → K f)
    (heffect : ∀ x, .move (.effect x) ∈ steps → ∀ w : World, P w (w.settle wiring x))
    (hwiring : p.wiring = wiring) : P p.world (p.proceed steps).play.world := by
  induction steps generalizing p with
  | nil => exact track.refl p.world
  | cons step rest ih =>
      have hrest : ∀ q : Play, q.wiring = wiring → P q.world (q.proceed rest).play.world :=
        fun q hq => ih (fun wiring h => hwired wiring (List.mem_cons_of_mem step h))
          (fun m h => hchange m (List.mem_cons_of_mem step h))
          (fun x h => heffect x (List.mem_cons_of_mem step h)) hq
      cases step with
      | move m =>
          have hm : ∀ wiring, m ≠ .rewire wiring :=
            fun wiring h => hwired wiring (h ▸ List.mem_cons_self)
          have hmoved : P p.world (p.move m).2.world := by
            subst hwiring
            refine track.move hsession (hchange m List.mem_cons_self) fun x hx => ?_
            exact heffect x (hx ▸ List.mem_cons_self) p.world
          exact track.trans hmoved (hrest _ ((Play.wiring_move hm).trans hwiring))
      | drain => exact track.trans (hdrained p.world) (hrest p.drain.2 hwiring)

end Narrative
