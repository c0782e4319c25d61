import Narrative.Proofs.Abreast

set_option autoImplicit false

/-!
# How the token of a scene is handled

A receiver may resume the token of a scene while the scene is in its hands, once or
several times, or keep it and decline. As long as the token is resumed or the scene
declined (`Receiver.IsPrompt`), what follows the scene runs before the action is over,
once and at the same place. So no one can tell such receivers apart: plays under them
give the same answers and come to the same game, queue and counters, and to the same
journal but for the answers to scenes (`handlings_agree`).

The reason is that between actions no token of a scene is left to be resumed
(`World.Spent`), so callbacks that were kept do nothing when they are called later.
-/

namespace Narrative

/-- Whether an act only keeps a token or resumes one. -/
def Act.isCallback : Act → Bool
  | .keep _ | .resume _ => true
  | _ => false

/-- A receiver that has a game carry out the effects, and lets what follows a scene run while the
scene is in its hands, or declines the scene. It may keep tokens, and resume any token at any
time; but it has no use for that, so the bound on nested resumptions is zero. -/
structure Receiver.IsPrompt (r : Receiver) : Prop where
  removes : ∀ w item quantity, r.removes w item quantity = w.game.accepts (.takeItem item quantity)
  effect : ∀ w x, ∃ before after, r.acts w (.effect x) = before ++ .change (·.apply x) :: after ∧
    (∀ a ∈ before, a.isCallback = true) ∧ ∀ a ∈ after, a.isCallback = true
  scene : ∀ w token request, ∀ a ∈ r.acts w (.scene token request), a.isCallback = true
  prompt : ∀ w request, r.answer w request = .declined ∨
    .resume w.tokens.length ∈ r.acts w (.scene w.tokens.length request)
  shallow : r.nesting = 0

/-- A session is prompt if an embedding program resumes or declines every scene. -/
theorem Receiver.isPrompt_entrust {handling : Nat → Handling}
    (h : ∀ token, (handling token).answer = .declined ∨ 0 < (handling token).calls) :
    (Receiver.session (.entrust handling)).IsPrompt where
  removes _ _ _ := rfl
  effect _ _ := ⟨[], [], rfl, List.forall_mem_nil _, List.forall_mem_nil _⟩
  scene w token request a ha := by
    simp only [Receiver.session, Screen.acts, List.mem_append, List.mem_replicate] at ha
    rcases ha with ha | ⟨-, rfl⟩
    · split at ha
      · rw [List.mem_singleton.1 ha]
        rfl
      · cases ha
    · rfl
  prompt w request := by
    refine (h w.tokens.length).imp id fun hcalls => List.mem_append_right _ ?_
    exact List.mem_replicate.2 ⟨Nat.pos_iff_ne_zero.1 hcalls, rfl⟩
  shallow := rfl

/-- To decline, with or without completing the token or keeping its callback, and to call the
callback twice are prompt. -/
theorem SceneMode.isPrompt {mode : SceneMode}
    (h : mode ∈ [SceneMode.decline, .eager, .stutter, .hoard]) (finishes : Bool) :
    (Receiver.session (mode.screen finishes)).IsPrompt := by
  simp only [List.mem_cons, List.not_mem_nil, or_false] at h
  rcases h with rfl | rfl | rfl | rfl <;> exact Receiver.isPrompt_entrust fun _ => by decide

/-! ## What can be told apart -/

/-- An entry without the answer to a scene. -/
def Entry.unanswered : Entry → Entry
  | .scene request _ => .scene request .declined
  | entry => entry

theorem Entry.unanswered_answered (kind : SceneKind) (answer : Playback) (entry : Entry) :
    (entry.answered kind answer).unanswered = entry.unanswered := by
  cases entry <;> rfl

/-- Two worlds that a game and its player cannot tell apart. -/
structure SameView (u v : World) : Prop where
  game : v.game = u.game
  queue : v.queue = u.queue
  counters : v.counters = u.counters
  depth : v.depth = u.depth
  inFlight : v.inFlight = u.inFlight
  journal : v.journal.map Entry.unanswered = u.journal.map Entry.unanswered

namespace SameView

variable {u v w : World}

theorem refl (w : World) : SameView w w := ⟨rfl, rfl, rfl, rfl, rfl, rfl⟩

theorem symm (h : SameView u v) : SameView v u :=
  ⟨h.game.symm, h.queue.symm, h.counters.symm, h.depth.symm, h.inFlight.symm, h.journal.symm⟩

theorem trans (h : SameView u v) (h' : SameView v w) : SameView u w :=
  ⟨h'.game.trans h.game, h'.queue.trans h.queue, h'.counters.trans h.counters,
    h'.depth.trans h.depth, h'.inFlight.trans h.inFlight, h'.journal.trans h.journal⟩

theorem count (h : SameView u v) (f : Counters → Counters) : SameView (u.count f) (v.count f) :=
  ⟨h.game, h.queue, congrArg f h.counters, h.depth, h.inFlight, h.journal⟩

theorem changeGame (h : SameView u v) (f : Game → Game) :
    SameView (u.changeGame f) (v.changeGame f) :=
  ⟨congrArg f h.game, h.queue, h.counters, h.depth, h.inFlight, h.journal⟩

theorem log {wiring wiring' : Wiring} (hwiring : wiring'.journaled = wiring.journaled)
    {entry entry' : Entry} (hentry : entry'.unanswered = entry.unanswered) (h : SameView u v) :
    SameView (u.log wiring entry) (v.log wiring' entry') := by
  simp only [World.log, hwiring]
  split
  · refine ⟨h.game, h.queue, h.counters, h.depth, h.inFlight, ?_⟩
    simp only [List.map_append, h.journal, List.map_cons, hentry]
  · exact h

end SameView

/-- A token was used up, or never handed out. -/
def World.UsedUp (w : World) (token : Nat) : Prop :=
  ∀ t, w.tokens[token]? = some t → t.status ≠ .pending

/-- Every token was used up. -/
def World.Spent (w : World) : Prop := ∀ token, w.UsedUp token

/-- Two worlds that cannot be told apart now or later: no token is left to be resumed. -/
structure Alike (u v : World) : Prop where
  view : SameView u v
  left : u.Spent
  right : v.Spent

namespace Alike

variable {u v w : World}

theorem refl (h : w.Spent) : Alike w w := ⟨.refl w, h, h⟩

theorem symm (h : Alike u v) : Alike v u := ⟨h.view.symm, h.right, h.left⟩

theorem trans (h : Alike u v) (h' : Alike v w) : Alike u w :=
  ⟨h.view.trans h'.view, h.left, h'.right⟩

theorem changeGame (h : Alike u v) (f : Game → Game) : Alike (u.changeGame f) (v.changeGame f) :=
  ⟨h.view.changeGame f, h.left, h.right⟩

theorem note (h : Alike u v) (x y : Happening) : Alike (u.note x) (v.note y) :=
  ⟨⟨h.view.game, h.view.queue, h.view.counters, h.view.depth, h.view.inFlight, h.view.journal⟩,
    h.left, h.right⟩

theorem log {wiring wiring' : Wiring} (hwiring : wiring'.journaled = wiring.journaled)
    (entry : Entry) (h : Alike u v) : Alike (u.log wiring entry) (v.log wiring' entry) := by
  refine ⟨h.view.log hwiring rfl, ?_, ?_⟩
  · obtain ⟨journal, hlog⟩ := u.exists_log wiring entry
    rw [hlog]
    exact h.left
  · obtain ⟨journal, hlog⟩ := v.exists_log wiring' entry
    rw [hlog]
    exact h.right

end Alike

/-! ## Callbacks -/

/-- A world is another but for what is noted about it, which callbacks are kept, and the answers in
the journal. -/
def World.Unseen (u v : World) : Prop :=
  ∃ kept trace journal, v = { u with kept, trace, journal } ∧
    journal.map Entry.unanswered = u.journal.map Entry.unanswered

namespace World.Unseen

variable {u v w : World}

theorem refl (w : World) : w.Unseen w := ⟨_, _, _, rfl, rfl⟩

theorem trans (h : u.Unseen v) (h' : v.Unseen w) : u.Unseen w := by
  obtain ⟨_, _, _, rfl, hjournal⟩ := h
  obtain ⟨_, _, _, rfl, hjournal'⟩ := h'
  exact ⟨_, _, _, rfl, hjournal'.trans hjournal⟩

theorem note (w : World) (x : Happening) : w.Unseen (w.note x) := ⟨_, _, _, rfl, rfl⟩

theorem fillIn (w : World) (wiring : Wiring) (place : Nat) (kind : SceneKind)
    (answer : Playback) : w.Unseen (w.fillIn wiring place kind answer) := by
  rw [World.fillIn]
  split
  · exact ⟨_, _, _, rfl, map_modify_of_eq (Entry.unanswered_answered kind answer) _ _⟩
  · exact .refl w

theorem spent (h : u.Unseen v) (hu : u.Spent) : v.Spent := by
  obtain ⟨_, _, _, rfl, -⟩ := h
  exact hu

theorem view (h : u.Unseen v) : SameView u v := by
  obtain ⟨_, _, _, rfl, hjournal⟩ := h
  exact ⟨rfl, rfl, rfl, rfl, rfl, hjournal⟩

/-- To resume a token that was used up has no effect. -/
theorem resume {token : Nat} {w : World} (h : w.UsedUp token)
    (follow : Sequel → Option (World → World)) : w.Unseen (w.resume follow token) := by
  have hresumes := w.resumes follow token
  generalize w.resume follow token = v at hresumes ⊢
  cases hresumes with
  | unknown => exact .refl w
  | lapsed ht hp => exact absurd hp (h _ ht)
  | continued ht hp => exact absurd hp (h _ ht)
  | ignored => exact .note w _

end World.Unseen

/-- Tokens are resumed in such a way that nothing happens to those that were used up. -/
def Harmless (revive : Nat → World → World) : Prop :=
  ∀ {token : Nat} {w : World}, w.UsedUp token → w.Unseen (revive token w)

/-- The ways out of action lists are harmless. -/
theorem Engine.harmless_reach (e : Engine) (wiring : Wiring) (k : Nat) :
    Harmless (e.reach wiring k).revive := by
  intro token w h
  cases k with
  | zero => exact .note w _
  | succ k => exact .resume h _

/-- While no token is left to be resumed, callbacks have no effect. -/
theorem World.Unseen.carryOut {revive : Nat → World → World} (hrevive : Harmless revive)
    {acts : List Act} (hacts : ∀ a ∈ acts, a.isCallback = true) {w : World} (hw : w.Spent) :
    w.Unseen (w.carryOut revive acts) := by
  induction acts generalizing w with
  | nil => exact .refl w
  | cons a rest ih =>
      have hfirst : w.Unseen (a.carry revive w) := by
        cases a with
        | change | park => cases hacts _ List.mem_cons_self
        | keep token => exact ⟨_, _, _, rfl, rfl⟩
        | resume token => exact hrevive (hw token)
      exact hfirst.trans (ih (fun x hx => hacts x (List.mem_cons_of_mem a hx)) (hfirst.spent hw))

theorem Alike.unseen {u u' v v' : World} (hu : u.Unseen u') (hv : v.Unseen v') (h : Alike u v) :
    Alike u' v' :=
  ⟨(hu.view.symm.trans h.view).trans hv.view, hu.spent h.left, hv.spent h.right⟩

/-! ## Effects -/

section Calls

variable {wiring wiring' : Wiring} {revive revive' : Nat → World → World} {u v : World}
variable (hrevive : Harmless revive) (hrevive' : Harmless revive')

include hrevive hrevive'

/-- What two prompt receivers do during an effect. -/
theorem Alike.carryOut (hprompt : wiring.receiver.IsPrompt) (hprompt' : wiring'.receiver.IsPrompt)
    (o o' : World) (x : Effect) (h : Alike u v) :
    Alike (u.carryOut revive (wiring.receiver.acts o (.effect x)))
      (v.carryOut revive' (wiring'.receiver.acts o' (.effect x))) := by
  obtain ⟨before, after, hacts, hbefore, hafter⟩ := hprompt.effect o x
  obtain ⟨before', after', hacts', hbefore', hafter'⟩ := hprompt'.effect o' x
  simp only [World.carryOut, hacts, hacts', List.foldl_append, List.foldl_cons]
  -- callbacks come before and after, and between them the effect on the game
  have hchanged := (h.unseen (.carryOut hrevive hbefore h.left)
    (.carryOut hrevive' hbefore' h.right)).changeGame (·.apply x)
  exact hchanged.unseen (.carryOut hrevive hafter hchanged.left)
    (.carryOut hrevive' hafter' hchanged.right)

theorem Alike.perform (hprompt : wiring.receiver.IsPrompt) (hprompt' : wiring'.receiver.IsPrompt)
    (hwiring : wiring'.journaled = wiring.journaled) (x : Effect) (h : Alike u v) :
    Matches Alike (u.perform wiring revive x) (v.perform wiring' revive' x) := by
  have haccepts : wiring'.receiver.accepts v x = wiring.receiver.accepts u x := by
    cases x <;> simp only [Receiver.accepts, hprompt.removes, hprompt'.removes, h.view.game]
  have hnoted := h.note (.called (.effect x (wiring.receiver.accepts u x)))
    (.called (.effect x (wiring.receiver.accepts u x)))
  -- a taking is written down after what is done about it, everything else before
  have hafter := fun entry =>
    (Alike.carryOut hrevive hrevive' hprompt hprompt' u v x hnoted).log hwiring entry
  have hbefore := fun entry =>
    Alike.carryOut hrevive hrevive' hprompt hprompt' u v x (hnoted.log hwiring entry)
  cases x <;> simp only [World.perform, haccepts] <;>
    first | exact ⟨rfl, hafter _⟩ | exact ⟨rfl, hbefore _⟩

end Calls

/-! ## Scenes -/

/-- One token is left to be resumed, that of the scene in hand. -/
structure World.Holding (token : Nat) (w : World) : Prop where
  pending : ∃ t q, w.tokens[token]? = some t ∧ t.status = .pending ∧ t.sequel = some q
  others : ∀ other, other ≠ token → w.UsedUp other

/-- What follows the scene has run, in a world that looks like `base` but for the count of it. All
that came later cannot be told. -/
def World.Continued (base : World) (run : World → World) (w : World) : Prop :=
  ∃ v : World, SameView (base.count (·.plus { continuationsResumed := 1 })) v ∧ v.Spent ∧
    Alike (run v) w

section Scene

variable {base u v w : World} {token : Nat} {run : World → World}

theorem World.Holding.unseen (h : w.Holding token) (hv : w.Unseen v) : v.Holding token := by
  obtain ⟨_, _, _, rfl, -⟩ := hv
  exact ⟨h.pending, h.others⟩

theorem World.Continued.unseen (h : base.Continued run w) (hv : w.Unseen v) :
    base.Continued run v := by
  obtain ⟨o, hbase, hspent, halike⟩ := h
  exact ⟨o, hbase, hspent, halike.unseen (.refl _) hv⟩

theorem World.Continued.spent (h : base.Continued run w) : w.Spent :=
  h.elim fun _ h => h.2.2.right

/-- A scene is handed out while no other token is left. -/
theorem World.Spent.hand (hw : w.Spent) (request : SceneRequest) (answer : Playback) (q : Sequel) :
    (w.hand request answer (some q)).Holding w.tokens.length where
  pending := ⟨_, q, List.getElem?_concat_length, rfl, rfl⟩
  others := by
    intro other hother t ht
    refine hw other t ?_
    have hlt : other < w.tokens.length := by
      have := (List.getElem?_eq_some_iff.1 ht).1
      simp only [World.hand, List.length_append, List.length_singleton] at this
      omega
    rwa [World.hand, List.getElem?_append_left hlt] at ht

/-- The first resumption of the token in hand runs what follows the scene. -/
theorem World.Holding.resume (run : World → World) (h : w.Holding token) :
    w.resume (fun _ => some run) token = run (w.redeem token) ∧ (w.redeem token).Spent := by
  obtain ⟨t, q, ht, hp, hq⟩ := h.pending
  constructor
  · simp [World.resume, ht, hp, hq]
  · intro other t' ht'
    simp only [World.redeem, World.count, World.note, World.spend, List.getElem?_modify] at ht'
    obtain ⟨t₀, ht₀, rfl⟩ := Option.map_eq_some_iff.1 ht'
    split
    · exact fun hstatus => TokenStatus.noConfusion hstatus
    · next hne => exact h.others other (Ne.symm hne) t₀ ht₀

variable (hrun : ∀ {w : World}, w.Spent → (run w).Spent)

include hrun

/-- Once the token in hand was resumed, what follows the scene has run. -/
theorem World.Holding.continued (h : w.Holding token) (hbase : SameView base w) :
    base.Continued run (w.resume (fun _ => some run) token) := by
  obtain ⟨hresume, hspent⟩ := h.resume run
  rw [hresume]
  refine ⟨w.redeem token, ?_, hspent, .refl (hrun hspent)⟩
  have hcounters := (hbase.count (·.plus { continuationsResumed := 1 })).counters
  exact ⟨hbase.game, hbase.queue, hcounters, hbase.depth, hbase.inFlight, hbase.journal⟩

/-- What callbacks do while a scene is in hand: what follows it runs as soon as its token is
resumed, and not before. -/
theorem World.Holding.carryOut {resume : Nat → World → World} (hharmless : Harmless resume)
    (hresume : ∀ w, resume token w = w.resume (fun _ => some run) token) {acts : List Act}
    (hacts : ∀ a ∈ acts, a.isCallback = true) (hw : w.Holding token) (hbase : SameView base w) :
    (.resume token ∉ acts ∧ SameView base (w.carryOut resume acts) ∧
        (w.carryOut resume acts).Holding token) ∨
      base.Continued run (w.carryOut resume acts) := by
  induction acts generalizing w with
  | nil => exact .inl ⟨List.not_mem_nil, hbase, hw⟩
  | cons a rest ih =>
      have hrest : ∀ x ∈ rest, x.isCallback = true :=
        fun x hx => hacts x (List.mem_cons_of_mem a hx)
      by_cases ha : a = .resume token
      -- what comes after the first resumption cannot be told any more
      · subst ha
        have hcontinued : base.Continued run (resume token w) :=
          hresume w ▸ hw.continued hrun hbase
        exact .inr (hcontinued.unseen (.carryOut hharmless hrest hcontinued.spent))
      -- other callbacks have no effect
      · have hfirst : w.Unseen (a.carry resume w) := by
          cases a with
          | change | park => cases hacts _ List.mem_cons_self
          | keep t => exact ⟨_, _, _, rfl, rfl⟩
          | resume t => exact hharmless (hw.others t fun ht => ha (ht ▸ rfl))
        refine (ih hrest (hw.unseen hfirst) (hbase.trans hfirst.view)).imp (fun h => ⟨?_, h.2⟩) id
        intro hmem
        exact (List.mem_cons.1 hmem).elim (fun heq => ha heq.symm) h.1

/-- A prompt receiver lets what follows a scene run before the action is over. -/
theorem World.Spent.runScene {wiring : Wiring} (hprompt : wiring.receiver.IsPrompt)
    {revive : Nat → World → World} (hrevive : Harmless revive) (hw : w.Spent)
    (request : SceneRequest) (q : Sequel) :
    (w.log wiring (.scene request .declined)).Continued run
      (w.runScene wiring revive request q run) := by
  have hharmless : Harmless fun t v =>
      if t = w.tokens.length then v.resume (fun _ => some run) w.tokens.length else revive t v := by
    intro t v h
    simp only
    split
    · next ht => exact .resume (ht ▸ h) _
    · exact hrevive h
  -- the world in which the receiver gets hold of the scene
  have hheld : ∀ answer, (w.ask wiring request answer (some q)).Holding w.tokens.length := by
    intro answer
    obtain ⟨journal, hasked⟩ := w.exists_ask wiring request answer (some q)
    have hhanded := hw.hand request answer q
    rw [hasked]
    exact ⟨hhanded.pending, hhanded.others⟩
  have hview : ∀ answer, SameView (w.log wiring (.scene request .declined))
      (w.ask wiring request answer (some q)) :=
    fun answer => SameView.log rfl rfl ⟨rfl, rfl, rfl, rfl, rfl, rfl⟩
  have hplayed := World.Holding.carryOut hrun hharmless (fun _ => if_pos rfl)
    (hprompt.scene w w.tokens.length request) (hheld (wiring.receiver.answer w request)) (hview _)
  have hprompt := hprompt.prompt w request
  simp only [World.runScene, World.playScene]
  refine World.Continued.unseen ?_ (.note _ _)
  split
  -- declined: the token is resumed if it was not
  · rcases hplayed with ⟨-, hbase, hholding⟩ | hcontinued
    · exact (hholding.unseen (.fillIn _ _ _ _ _)).continued hrun
        (hbase.trans (World.Unseen.fillIn _ _ _ _ _).view)
    · have hfilled := hcontinued.unseen (.fillIn _ wiring w.journal.length request.kind
        (wiring.receiver.answer w request))
      exact hfilled.unseen (.resume (hfilled.spent _) _)
  -- started: it was resumed while the scene was in hand
  · next hstarted =>
      refine World.Continued.unseen ?_ (.fillIn _ _ _ _ _)
      refine hplayed.resolve_left fun h => h.1 (hprompt.resolve_left fun hdeclined => ?_)
      rw [hdeclined] at hstarted
      cases hstarted

end Scene

/-! ## Runs -/

section Runs

variable {wiring wiring' : Wiring}
variable (hprompt : wiring.receiver.IsPrompt) (hprompt' : wiring'.receiver.IsPrompt)
variable (hwiring : wiring'.journaled = wiring.journaled)

include hprompt hprompt' hwiring

/-- Under two prompt receivers a scene comes to the same. -/
theorem Alike.runScene {revive revive' : Nat → World → World} (hrevive : Harmless revive)
    (hrevive' : Harmless revive') (request : SceneRequest) (q : Sequel) {run run' : World → World}
    (hrun : Carries Alike run run') :
    Carries Alike (·.runScene wiring revive request q run)
      (·.runScene wiring' revive' request q run') := by
  intro u v h
  have hleft : ∀ {w : World}, w.Spent → (run w).Spent := fun hw => (hrun (.refl hw)).left
  have hright : ∀ {w : World}, w.Spent → (run' w).Spent := fun hw => (hrun (.refl hw)).right
  obtain ⟨o, ho, hspent, halike⟩ := h.left.runScene hleft hprompt hrevive request q
  obtain ⟨o', ho', hspent', halike'⟩ := h.right.runScene hright hprompt' hrevive' request q
  -- what follows the scene starts from worlds that look the same
  have hbase : SameView (u.log wiring (.scene request .declined))
      (v.log wiring' (.scene request .declined)) := h.view.log hwiring rfl
  have hstart : Alike o o' := ⟨(ho.symm.trans (hbase.count _)).trans ho', hspent, hspent'⟩
  exact (halike.symm.trans (hrun hstart)).trans halike'

/-- Two prompt receivers cannot be told apart. -/
theorem Alike.parallel (e : Engine) : Parallel e wiring wiring' Alike where
  state h := congrArg _ h.view.game
  depth h := h.view.depth
  inFlight h := h.view.inFlight
  counted _ _ _ h := ⟨h.view.count _, h.left, h.right⟩
  noted x _ _ h := h.note x x
  guarded _ _ _ _ h :=
    ⟨⟨h.view.game, h.view.queue, h.view.counters, rfl, rfl, h.view.journal⟩, h.left, h.right⟩
  recorded _ _ _ h := h.changeGame _
  call _ x _ _ h :=
    Alike.perform (e.harmless_reach _ _) (e.harmless_reach _ _) hprompt hprompt' hwiring x h
  scene _ request q _ _ hrun := Alike.runScene hprompt hprompt' hwiring (e.harmless_reach _ _)
    (e.harmless_reach _ _) request q hrun
  -- no token is left to be resumed
  resumption _ _ _ token _ _ h := h.unseen (.resume (h.left token) _) (.resume (h.right token) _)

end Runs

/-! ## Plays -/

/-- Whether a move calls a callback that was kept. -/
def Move.isCallback : Move → Bool
  | .resumeKept _ => true
  | _ => false

/-- The answers to the moves of a run, but for calls of callbacks that were kept. -/
def Play.answers (p : Play) : List Move → List Answer
  | [] => []
  | m :: rest =>
      let (answer, p) := p.move m
      if m.isCallback then p.answers rest else answer :: p.answers rest

/-- Two plays of one engine under two wirings, which cannot be told apart. -/
structure Play.Alike (e : Engine) (wiring wiring' : Wiring) (p p' : Play) : Prop where
  engine : p.engine = some e
  engine' : p'.engine = some e
  wiring : p.wiring = wiring
  wiring' : p'.wiring = wiring'
  world : Narrative.Alike p.world p'.world

namespace Play.Alike

variable {e : Engine} {wiring wiring' : Wiring} {p p' : Play}

/-- A callback that was kept has no effect when it is called. -/
theorem resumeKept (h : Play.Alike e wiring wiring' p p') (index : Nat) :
    Play.Alike e wiring wiring' p (p'.move (.resumeKept index)).2 := by
  unfold Play.move
  simp only
  split
  · exact ⟨h.engine, h.engine', h.wiring, h.wiring',
      h.world.unseen (.refl _) (.resume (h.world.right _) _)⟩
  · exact h

variable (hprompt : wiring.receiver.IsPrompt) (hprompt' : wiring'.receiver.IsPrompt)
variable (hwiring : wiring'.journaled = wiring.journaled)

include hprompt hprompt' hwiring

/-- Whatever the engine is asked for comes to the same. -/
theorem ask (h : Play.Alike e wiring wiring' p p') {m : Move} (hm : m.IsAsk) :
    (p'.move m).1 = (p.move m).1 ∧
      Play.Alike e wiring wiring' (p.move m).2 (p'.move m).2 := by
  obtain rfl := h.wiring
  obtain rfl := h.wiring'
  have par := Narrative.Alike.parallel hprompt hprompt' hwiring e
  have hcrewed : p.Crewed ⟨fun _ => True, Eq, Eq⟩ Narrative.Alike p' := {
    world := h.world
    engine := by
      rw [h.engine, h.engine']
      exact .some ⟨rfl, par.twins⟩
    nesting := hprompt'.shallow.trans hprompt.shallow.symm }
  obtain ⟨hanswer, hworld⟩ := hcrewed.ask (fun _ => h.world.changeGame _) (Move.fits_self
    (by rintro wiring rfl; exact hm) (by rintro catalog config rfl; exact hm)) hm
  obtain ⟨hengine, hwired, -⟩ := Play.move_frame (p := p) (hm.isPlain True)
  obtain ⟨hengine', hwired', -⟩ := Play.move_frame (p := p') (hm.isPlain True)
  exact ⟨hanswer, hengine.trans h.engine, hengine'.trans h.engine', hwired, hwired', hworld⟩

/-- Two runs come to the same, although callbacks that were kept are called in one of them. -/
theorem run {moves : List Move} (hmoves : ∀ m ∈ moves, m.IsAsk ∨ m.isCallback = true)
    (h : Play.Alike e wiring wiring' p p') :
    p'.answers moves = p.answers (moves.filter (!·.isCallback)) ∧
      Narrative.Alike (p.run (moves.filter (!·.isCallback))).world (p'.run moves).world := by
  induction moves generalizing p p' with
  | nil => exact ⟨rfl, h.world⟩
  | cons m rest ih =>
      have hrest : ∀ x ∈ rest, x.IsAsk ∨ x.isCallback = true :=
        fun x hx => hmoves x (List.mem_cons_of_mem m hx)
      cases hm : m.isCallback with
      | true =>
          have hnext : Play.Alike e wiring wiring' p (p'.move m).2 := by
            cases m with
            | resumeKept index => exact h.resumeKept index
            | _ => cases hm
          simp only [List.filter_cons, hm, Play.answers, if_true, Bool.not_true,
            Bool.false_eq_true, if_false]
          exact ih hrest hnext
      | false =>
          have hask : m.IsAsk := (hmoves m List.mem_cons_self).resolve_right (by simp [hm])
          obtain ⟨hanswer, hnext⟩ := ask hprompt hprompt' hwiring h hask
          obtain ⟨hanswers, hworld⟩ := ih hrest hnext
          simp only [List.filter_cons, hm, Play.answers, Bool.not_false, if_true,
            Bool.false_eq_true, if_false, hanswer, hanswers]
          exact ⟨trivial, hworld⟩

end Play.Alike

/-- **How scenes are handled makes no difference**, as long as their tokens are resumed at once
or the scenes declined. To drop a token and decline, to complete it and decline, to call its
callback twice and answer that the scene has started, and to keep the callback, decline and
call it later are such ways. Under two receivers that handle each scene in such a way, and may
resume any token at any time beside, and with kept callbacks called at any time between the
moves, two plays of an engine give the same answers, and come to the same game, queue of
scenes and counters and to the same journal but for the answers to scenes. -/
theorem handlings_agree (e : Engine) {wiring wiring' : Wiring}
    (hprompt : wiring.receiver.IsPrompt) (hprompt' : wiring'.receiver.IsPrompt)
    (hwiring : wiring'.journaled = wiring.journaled) {w : World} (hspent : w.Spent) (engines : Nat)
    {moves moves' : List Move} (hmoves : ∀ m ∈ moves, m.IsAsk ∨ m.isCallback = true)
    (hmoves' : ∀ m ∈ moves', m.IsAsk ∨ m.isCallback = true)
    (hsame : moves'.filter (!·.isCallback) = moves.filter (!·.isCallback)) :
    let p : Play := ⟨some e, wiring, w, engines⟩
    let p' : Play := ⟨some e, wiring', w, engines⟩
    (∀ mode ∈ [SceneMode.decline, .eager, .stutter, .hoard], ∀ finishes,
      (Receiver.session (mode.screen finishes)).IsPrompt) ∧
    p'.answers moves' = p.answers moves ∧
    (p'.run moves').world.game = (p.run moves).world.game ∧
    (p'.run moves').world.queue = (p.run moves).world.queue ∧
    (p'.run moves').world.counters = (p.run moves).world.counters ∧
    (p'.run moves').world.journal.map Entry.unanswered =
      (p.run moves).world.journal.map Entry.unanswered := by
  intro p p'
  -- both runs are compared with one in which no callback is called between the moves
  have hself : Play.Alike e wiring wiring p p := ⟨rfl, rfl, rfl, rfl, .refl hspent⟩
  have hother : Play.Alike e wiring wiring' p p' := ⟨rfl, rfl, rfl, rfl, .refl hspent⟩
  obtain ⟨hanswers, hworld⟩ := hself.run hprompt hprompt rfl hmoves
  obtain ⟨hanswers', hworld'⟩ := hother.run hprompt hprompt' hwiring hmoves'
  rw [hsame] at hanswers' hworld'
  have hview := (hworld.symm.trans hworld').view
  exact ⟨fun _ hmode => SceneMode.isPrompt hmode, hanswers'.trans hanswers.symm, hview.game,
    hview.queue, hview.counters, hview.journal⟩

/-- A scene is followed by a lesson and by what the lesson is followed by. The callbacks of both are
called at once, or kept and called when everything is over. -/
theorem lesson_after_scene_agrees :
    let actions : List Action := [.playCinematic (some "arrival")
      [.systemTutorial (some "walking") none [.deed (.giveXp (some 5))],
        .deed (.setMilestone (some "arrived"))]]
    let wiring (mode : SceneMode) : Wiring := ⟨.session (mode.screen true), true⟩
    let late : List Move := [.perform actions, .resumeKept 1, .resumeKept 0, .resumeKept 1]
    let eager := (Play.run ⟨some {}, wiring .eager, {}, 1⟩ [.perform actions]).world
    let hoard := (Play.run ⟨some {}, wiring .hoard, {}, 1⟩ late).world
    hoard.counters.continuationsResumed = 2 ∧ hoard.game = eager.game ∧
      hoard.journal.map Entry.unanswered = eager.journal.map Entry.unanswered := by
  intro actions wiring late eager hoard
  have hmoves : ∀ m ∈ [Move.perform actions], m.IsAsk ∨ m.isCallback = true := by
    simp [Move.IsAsk]
  have hlate : ∀ m ∈ late, m.IsAsk ∨ m.isCallback = true := by
    simp [late, Move.IsAsk, Move.isCallback]
  have hspent : ({} : World).Spent := fun token t ht => by cases ht
  have heager : (wiring .eager).receiver.IsPrompt := SceneMode.isPrompt (by decide) true
  have hhoard : (wiring .hoard).receiver.IsPrompt := SceneMode.isPrompt (by decide) true
  obtain ⟨-, -, hgame, -, -, hjournal⟩ :=
    handlings_agree {} heager hhoard rfl hspent 1 hmoves hlate rfl
  exact ⟨by decide, hgame, hjournal⟩

end Narrative
