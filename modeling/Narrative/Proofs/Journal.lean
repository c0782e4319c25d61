import Narrative.Proofs.Session
import Narrative.Proofs.Abreast

set_option autoImplicit false

/-!
# The journal of a session

A journal of the calls to a session is exact, and nobody can tell that it is kept
(`journal_is_exact`): the entries are the calls that were made, each once and in the order they were
made, with the answers they really got, and a play without the journal comes to the same.

Both are proved of all that happens over a session. The first is a relation between the worlds
before and after (`Exact`). The entry of a scene is where this is not obvious: it is written with
a placeholder for the answer and completed at the end, after whatever the scene has led to was
written behind it. That it is found again is `World.journal_fillIn`. The second compares a play with
its copy that keeps no journal (`Play.unjournaled`): a session cannot tell the two apart, so every
move comes to the same in both.
-/

namespace Narrative

/-! ## What is written -/

theorem World.journal_log (w : World) (wiring : Wiring) (entry : Entry) :
    (w.log wiring entry).journal = w.journal ++ if wiring.journaled then [entry] else [] := by
  rw [World.log]
  split
  · rfl
  · exact (List.append_nil _).symm

/-- The answer to a scene is filled in where its entry was written, whatever came after it. -/
theorem World.journal_fillIn {w : World} {wiring : Wiring} {journal later : List Entry}
    {request : SceneRequest} {placeholder : Playback} (answer : Playback)
    (h : w.journal =
      journal ++ if wiring.journaled then .scene request placeholder :: later else []) :
    (w.fillIn wiring journal.length request.kind answer).journal =
      journal ++ if wiring.journaled then .scene request answer :: later else [] := by
  rw [World.fillIn]
  split
  · next hjournaled =>
      rw [if_pos hjournaled] at h
      show w.journal.modify journal.length (·.answered request.kind answer) = _
      rw [h, modify_append_cons, Entry.answered, if_pos rfl]
  · next hplain => rw [h, if_neg hplain]

/-! ## What is true -/

/-- A moment is recorded as it was. A call has the answer that the session gives at this moment,
where `before` scenes were asked for; and what follows a scene runs after the scene was asked
for. -/
def Moment.IsFaithful (screen : Screen) (before : Nat) (m : Moment) : Prop :=
  match m.happening with
  | .called (.effect x accepted) => accepted = m.game.accepts x
  | .called (.scene _ answer) => answer = screen.answer before
  | .resumed token _ => token < before
  | _ => True

/-- What happened between two worlds is known exactly: it was added to the trace, all of it is
true, the calls among it were added to the journal, if one is kept, and there is a token for each of
the scenes. -/
structure ExactSince (wiring : Wiring) (screen : Screen) (new : List Moment) (u v : World) :
    Prop where
  trace : v.trace = new ++ u.trace
  journal : v.journal = u.journal ++ if wiring.journaled then callsIn new else []
  scenes : v.tokens.map (·.request) = u.tokens.map (·.request) ++ scenesIn new
  faithful : ∀ m older, m :: older <:+ new →
    m.IsFaithful screen (u.tokens.length + (scenesIn older).length)

/-- What happened between two worlds is known exactly. -/
def Exact (wiring : Wiring) (screen : Screen) (u v : World) : Prop :=
  ∃ new, ExactSince wiring screen new u v

namespace Exact

variable {wiring : Wiring} {screen : Screen} {u v w : World}

theorem trans (h : Exact wiring screen u v) (h' : Exact wiring screen v w) :
    Exact wiring screen u w := by
  obtain ⟨new, htrace, hjournal, hscenes, hfaithful⟩ := h
  obtain ⟨new', htrace', hjournal', hscenes', hfaithful'⟩ := h'
  have hlength : v.tokens.length = u.tokens.length + (scenesIn new).length := by
    simpa using congrArg List.length hscenes
  refine ⟨new' ++ new, ?_, ?_, ?_, forall_suffix_append ?_ hfaithful⟩
  · rw [htrace', htrace, List.append_assoc]
  · rw [hjournal', hjournal, callsIn_append]
    split <;> simp
  · rw [hscenes', hscenes, scenesIn_append, List.append_assoc]
  · intro m older hm
    have hm' := hfaithful' m older hm
    rwa [hlength, Nat.add_assoc, ← List.length_append, ← scenesIn_append] at hm'

/-- Nothing happens that is told in the trace or the journal. -/
theorem same (htokens : v.tokens.map (·.request) = u.tokens.map (·.request))
    (hjournal : v.journal = u.journal) (htrace : v.trace = u.trace) : Exact wiring screen u v := by
  refine ⟨[], htrace, ?_, ?_, ?_⟩
  · simp [hjournal]
  · simp [htokens]
  · intro m older hm
    cases List.suffix_nil.1 hm

/-- One thing happens, and is recorded as it was. -/
theorem single {m : Moment} (htokens : v.tokens.map (·.request) =
      u.tokens.map (·.request) ++ scenesIn [m])
    (hjournal : v.journal = u.journal ++ if wiring.journaled then callsIn [m] else [])
    (htrace : v.trace = m :: u.trace) (hm : m.IsFaithful screen u.tokens.length) :
    Exact wiring screen u v := by
  refine ⟨[m], htrace, hjournal, htokens, forall_suffix_cons hm ?_⟩
  intro m older hm
  cases List.suffix_nil.1 hm

/-- Something happens that is no call. -/
theorem note (w : World) {x : Happening} (hx : x.entry? = none)
    (hknown : ∀ token outcome, x = .resumed token outcome → token < w.tokens.length) :
    Exact wiring screen w (w.note x) := by
  refine single (m := ⟨x, w.game, w.depth⟩) ?_ ?_ rfl ?_
  · simp [scenesIn_cons_of_none hx, World.note]
  · simp [callsIn_cons_of_none hx, World.note]
  · cases x with
    | called => cases hx
    | resumed token outcome => exact hknown token outcome rfl
    | _ => trivial

/-- An effect is called for, written down and carried out. -/
theorem settle (w : World) (x : Effect) : Exact wiring screen w (w.settle wiring x) := by
  obtain ⟨journal, hsettle⟩ := w.exists_settle wiring x
  refine single (m := ⟨.called (.effect x (w.game.accepts x)), w.game, w.depth⟩) ?_ ?_ ?_ rfl
  · rw [scenesIn_cons_effect, scenesIn_nil, List.append_nil, hsettle]
    rfl
  · rw [World.settle, World.journal_log, callsIn_cons_called]
    rfl
  · rw [hsettle]
    rfl

/-- A scene is asked for. What it led to was recorded exactly, behind its entry; so once the
answer is filled in, all of it is. -/
theorem ask {request : SceneRequest} {sequel : Option Sequel}
    (h : Exact wiring screen
      (w.ask wiring request (screen.answer w.tokens.length) sequel) v) :
    Exact wiring screen w
      (v.fillIn wiring w.journal.length request.kind (screen.answer w.tokens.length)) := by
  obtain ⟨new, htrace, hjournal, hscenes, hfaithful⟩ := h
  have hasked : (w.ask wiring request (screen.answer w.tokens.length) sequel).journal =
      w.journal ++ if wiring.journaled then [.scene request .started] else [] :=
    World.journal_log _ wiring _
  rw [hasked] at hjournal
  obtain ⟨journal, hask⟩ :=
    w.exists_ask wiring request (screen.answer w.tokens.length) sequel
  rw [hask] at htrace hscenes hfaithful
  have hbehind : v.journal = w.journal ++
      if wiring.journaled then .scene request .started :: callsIn new else [] := by
    rw [hjournal]
    split <;> simp
  have hfilled := World.journal_fillIn (screen.answer w.tokens.length) hbehind
  obtain ⟨journal', hfill⟩ := v.exists_fillIn wiring w.journal.length request.kind
    (screen.answer w.tokens.length)
  refine ⟨new ++ [⟨.called (.scene request (screen.answer w.tokens.length)), w.game, w.depth⟩],
    ?_, ?_, ?_, forall_suffix_append ?_ (forall_suffix_cons ?_ ?_)⟩
  · rw [hfill, List.append_assoc]
    exact htrace
  · rw [hfilled, callsIn_append, callsIn_cons_called]
    rfl
  · rw [hfill, scenesIn_append, scenesIn_cons_scene]
    simpa [World.note, World.hand] using hscenes
  · intro m older hm
    have hm' := hfaithful m older hm
    simp only [World.note, World.hand, List.length_append, List.length_singleton] at hm'
    rwa [scenesIn_append, scenesIn_cons_scene, scenesIn_nil, List.nil_append, List.length_append,
      List.length_singleton, ← Nat.add_assoc]
  · exact rfl
  · intro m older hm
    cases List.suffix_nil.1 hm

/-- **Everything that happens over a session is recorded exactly.** -/
theorem tracks (hsession : wiring.receiver = .session screen) :
    SessionTracks wiring (fun _ => True) (Exact wiring screen) where
  trans := trans
  same _ htokens hjournal htrace := same htokens hjournal htrace
  noted := note
  arranged _ _ _ := same rfl rfl rfl
  called w _ _ := World.settleAll_of (fun _ => same rfl rfl rfl) trans (fun x _ w => settle w x) w
  asked {w v request sequel} h := by
    have hanswer : wiring.receiver.answer w request = screen.answer w.tokens.length := by
      rw [hsession]
      rfl
    rw [hanswer] at h ⊢
    exact ask h
  recorded _ := trivial
  seen _ := trivial

end Exact

/-- Whatever is known to have happened, its calls are what was added to the journal: there is but one
stretch of the trace between two worlds. -/
theorem Exact.journal_eq {screen : Screen} {u v : World} {new : List Moment}
    (h : Exact ⟨.session screen, true⟩ screen u v) (htrace : v.trace = new ++ u.trace) :
    v.journal = u.journal ++ callsIn new := by
  obtain ⟨new', htrace', hjournal, -, -⟩ := h
  obtain rfl : new' = new := List.append_cancel_right (htrace'.symm.trans htrace)
  exact hjournal

/-! ## A play without a journal -/

/-- The world with an empty journal. -/
def World.unjournaled (w : World) : World := { w with journal := [] }

/-- A session cannot tell whether a journal of its calls is kept. -/
theorem World.blind_unjournaled (screen : Screen) :
    Blind ⟨.session screen, true⟩ ⟨.session screen, false⟩ fun u v => v = u.unjournaled where
  removes h := by rw [h]; rfl
  answer h := by rw [h]; rfl
  acts _ := rfl
  state h := by rw [h]; rfl
  depth h := by rw [h]; rfl
  inFlight h := by rw [h]; rfl
  tokens h := by rw [h]; rfl
  counted _ _ _ h := by rw [h]; rfl
  noted _ _ _ h := by rw [h]; rfl
  guarded _ _ _ _ h := by rw [h]; rfl
  acted a hresume _ _ h := by
    cases a with
    | resume token => exact hresume token rfl h
    | _ => rw [h]; rfl
  logged _ _ _ h := by rw [h]; rfl
  filled _ _ _ _ _ h := by rw [h]; rfl
  handed _ _ _ _ _ h := by rw [h]; rfl
  spent _ _ _ _ h := by rw [h]; rfl

/-- The journal is no part of what the host keeps. -/
theorem World.hosted_unjournaled : Hosted fun u v => v = u.unjournaled where
  queue h := by rw [h]; rfl
  kept h := by rw [h]; rfl
  unqueued _ _ _ h := by rw [h]; rfl

namespace Play

/-- The play in which no journal is kept. -/
def unjournaled (p : Play) : Play :=
  { p with wiring := { p.wiring with journaled := false }, world := p.world.unjournaled }

/-- A session cannot tell the two plays apart. -/
theorem abreast_unjournaled {p : Play} {screen : Screen}
    (hwiring : p.wiring = ⟨.session screen, true⟩) :
    p.Abreast ⟨fun _ => True, Eq, Eq⟩ (fun u v => v = u.unjournaled) p.unjournaled := by
  have blind : Blind p.wiring p.unjournaled.wiring fun u v => v = u.unjournaled := by
    rw [unjournaled, hwiring]
    exact World.blind_unjournaled screen
  exact blind.abreast World.hosted_unjournaled rfl rfl rfl

theorem eq_unjournaled {p q : Play} (hengine : q.engine = p.engine)
    (hwiring : q.wiring = { p.wiring with journaled := false })
    (hworld : q.world = p.world.unjournaled) (hengines : q.engines = p.engines) :
    q = p.unjournaled := by
  obtain ⟨⟩ := q
  simp only at hengine hwiring hworld hengines
  rw [hengine, hwiring, hworld, hengines]
  rfl

/-- **A move comes to the same without a journal.** -/
theorem move_unjournaled {p : Play} {screen : Screen}
    (hwiring : p.wiring = ⟨.session screen, true⟩) {m : Move}
    (hm : ∀ wiring, m ≠ .rewire wiring) :
    p.unjournaled.move m = ((p.move m).1, (p.move m).2.unjournaled) := by
  by_cases hrestart : ∃ catalog config, m = .restart catalog config
  · obtain ⟨catalog, config, rfl⟩ := hrestart
    have hengine : p.unjournaled.engine = p.engine := rfl
    unfold move restart dropEngine
    simp only [hengine]
    split <;> rfl
  · have hfits : m.Fits (fun _ => True) Eq m :=
      Move.fits_self hm fun catalog config h => hrestart ⟨catalog, config, h⟩
    obtain ⟨hanswer, hworld⟩ := (abreast_unjournaled hwiring).move hfits
    have hsame : Option.Rel Eq p.engine p.unjournaled.engine := by
      show Option.Rel Eq p.engine p.engine
      cases p.engine <;> constructor
      rfl
    obtain ⟨hengine, hengines, hwired, hwired'⟩ := hfits.frame hsame rfl
    refine Prod.ext hanswer (eq_unjournaled ?_ ?_ hworld hengines)
    · rcases rel_cases hengine with ⟨h, h'⟩ | ⟨e, _, h, h', rfl⟩ <;> rw [h, h']
    · rw [hwired', hwired]
      rfl

end Play

/-! ## Runs in which the journal is read -/

/-- The last world of a run, had nothing been taken out of its journal. -/
def Proceedings.undrained (r : Proceedings) : World :=
  { r.play.world with journal := r.taken ++ r.play.world.journal }

/-- It makes no difference what was in the journal before. -/
theorem Exact.behind {wiring : Wiring} {screen : Screen} {u v : World} (earlier : List Entry)
    (h : Exact wiring screen u v) :
    Exact wiring screen { u with journal := earlier ++ u.journal }
      { v with journal := earlier ++ v.journal } := by
  obtain ⟨new, htrace, hjournal, hscenes, hfaithful⟩ := h
  exact ⟨new, htrace, by rw [hjournal, List.append_assoc], hscenes, hfaithful⟩

namespace Play

variable {p : Play} {screen : Screen} {steps : List HostStep}
variable (hsteps : ∀ wiring, .move (.rewire wiring) ∉ steps)

include hsteps

/-- A run is recorded exactly, whenever the journal is read. -/
theorem exact_proceed (hsession : p.wiring.receiver = .session screen) :
    Exact p.wiring screen p.world (p.proceed steps).undrained := by
  induction steps generalizing p with
  | nil => exact .same rfl rfl rfl
  | cons step rest ih =>
      have hrest : ∀ wiring, .move (.rewire wiring) ∉ rest :=
        fun wiring h => hsteps wiring (List.mem_cons_of_mem step h)
      cases step with
      | move m =>
          have hwired : (p.move m).2.wiring = p.wiring :=
            wiring_move fun wiring h => hsteps wiring (h ▸ List.mem_cons_self)
          have hmove := (Exact.tracks hsession).move hsession (m := m) (fun _ _ => trivial)
            fun x _ => Exact.settle p.world x
          have hlater := ih (p := (p.move m).2) hrest (by rwa [hwired])
          rw [hwired] at hlater
          exact hmove.trans hlater
      | drain =>
          have hdrained := (ih (p := p.drain.2) hrest hsession).behind p.world.journal
          simpa [drain, proceed, Proceedings.undrained] using hdrained

/-- A run comes to the same without a journal. -/
theorem proceed_unjournaled (hwiring : p.wiring = ⟨.session screen, true⟩) :
    p.unjournaled.proceed steps =
      ⟨(p.proceed steps).answers, [], (p.proceed steps).play.unjournaled⟩ := by
  induction steps generalizing p with
  | nil => rfl
  | cons step rest ih =>
      have hrest : ∀ wiring, .move (.rewire wiring) ∉ rest :=
        fun wiring h => hsteps wiring (List.mem_cons_of_mem step h)
      cases step with
      | move m =>
          have hm : ∀ wiring, m ≠ .rewire wiring :=
            fun wiring h => hsteps wiring (h ▸ List.mem_cons_self)
          have hnext := ih hrest ((wiring_move hm).trans hwiring)
          simp only [proceed, move_unjournaled hwiring hm, hnext]
      | drain =>
          have hdrained := ih (p := p.drain.2) hrest hwiring
          exact congrArg (fun later => { later with taken := [] ++ later.taken }) hdrained

end Play

/-- **The journal of a session is exact, and keeping it makes no difference.** Whatever the host
does with a session, and whenever it reads the journal in between, the entries that it has taken
out and those that are left are the calls that were made, in order. Every call is recorded with the
answer that the session gave: an effect with the verdict of the game as it was, a scene with the
answer of the screen. What follows a scene runs after the call for it, so its own calls come
later. The same run without a journal gives the same answers and comes to the same world. -/
theorem journal_is_exact (catalog : Catalog) (config : EngineConfig) (screen : Screen)
    (state : SessionState) {steps : List HostStep}
    (hsteps : ∀ wiring, .move (.rewire wiring) ∉ steps) :
    let recorded := (Play.start catalog config ⟨.session screen, true⟩ state).proceed steps
    let plain := (Play.start catalog config ⟨.session screen, false⟩ state).proceed steps
    let trace := recorded.play.world.trace
    recorded.taken ++ recorded.play.world.journal = callsIn trace ∧
    recorded.play.world.tokens.map (·.request) = scenesIn trace ∧
    (∀ m older, m :: older <:+ trace →
      (∀ x accepted, m.happening = .called (.effect x accepted) → accepted = m.game.accepts x) ∧
      (∀ request answer, m.happening = .called (.scene request answer) →
        answer = screen.answer (scenesIn older).length) ∧
      ∀ token outcome, m.happening = .resumed token outcome →
        token < (scenesIn older).length) ∧
    plain.answers = recorded.answers ∧ plain.taken ++ plain.play.world.journal = [] ∧
    plain.play.engine = recorded.play.engine ∧
    plain.play.world = { recorded.play.world with journal := [] } := by
  intro recorded plain trace
  have hplain : plain = ⟨recorded.answers, [], recorded.play.unjournaled⟩ :=
    Play.proceed_unjournaled (p := Play.start catalog config ⟨.session screen, true⟩ state)
      hsteps rfl
  obtain ⟨new, htrace, hjournal, hscenes, hfaithful⟩ := Play.exact_proceed
    (p := Play.start catalog config ⟨.session screen, true⟩ state) hsteps rfl
  have hnew : trace = new := htrace.trans (List.append_nil new)
  rw [hnew, hplain]
  refine ⟨hjournal, hscenes, ?_, rfl, rfl, rfl, rfl⟩
  intro m older hm
  have hm' := hfaithful m older hm
  have hbefore : (Play.start catalog config ⟨.session screen, true⟩ state).world.tokens.length +
      (scenesIn older).length = (scenesIn older).length := Nat.zero_add _
  rw [hbefore, Moment.IsFaithful] at hm'
  refine ⟨?_, ?_, ?_⟩
  · intro x accepted h
    rwa [h] at hm'
  · intro request answer h
    rwa [h] at hm'
  · intro token outcome h
    rwa [h] at hm'

/-- A lesson inside a scene, both of which are completed before they are declined: their entries
stand in front of all that they have led to, with the answers. -/
theorem nested_lesson_is_recorded :
    let actions : List Action := [.playCinematic (some "arrival")
      [.systemTutorial (some "walking") none [.deed (.takeItem (some "coin") 1)],
        .deed (.giveXp (some 5))]]
    let steps : List HostStep := [.move (.perform actions), .drain, .move .finishScene]
    let wiring : Wiring := ⟨.session (SceneMode.eager.screen true), true⟩
    let recorded := (Play.start ∅ {} wiring {}).proceed steps
    (∀ wiring, .move (.rewire wiring) ∉ steps) ∧
    recorded.taken = [.scene (.cinematic "arrival") .declined,
      .scene (.tutorial (some "walking") none) .declined, .effect (.takeItem "coin" 1) false,
      .effect (.giveXp 5) true] ∧
    recorded.taken ++ recorded.play.world.journal = callsIn recorded.play.world.trace := by
  intro actions steps wiring recorded
  have hsteps : ∀ wiring, .move (.rewire wiring) ∉ steps := by
    simp [steps]
  exact ⟨hsteps, by decide, (journal_is_exact ∅ {} _ {} hsteps).1⟩

end Narrative
