import Narrative.Proofs.Abreast

set_option autoImplicit false

/-!
# Behind the scenes

Two runs may differ in what stays behind the scenes: in the actions that are still to follow a
scene, in what is counted, and in what the trace tells. A `Staging` says how far they may. The
actions of all tokens are rewritten in one way, and the differences in the counters and in the
trace survive whatever is added to both.

Worlds that differ in this only (`Restaged`) have the same game, the same queue and the same
journal, and no session can tell them apart (`Restaged.unaware`).
-/

namespace Narrative

/-- What may differ behind the scenes of two runs. -/
structure Staging where
  rewrite : List Action → List Action
  counters : Counters → Counters → Prop
  trace : List Moment → List Moment → Prop
  counters_refl : ∀ n, counters n n
  trace_refl : ∀ ms, trace ms ms
  counted : ∀ (more : Counters) {n n' : Counters}, counters n n' →
    counters (n.plus more) (n'.plus more)
  noted : ∀ (m : Moment) {ms ms' : List Moment}, trace ms ms' → trace (m :: ms) (m :: ms')

/-- Corresponding lists of actions: the second one is the first one rewritten. -/
def Staging.Fits (σ : Staging) (actions actions' : List Action) : Prop :=
  actions' = σ.rewrite actions

/-- A token with the actions of its sequel rewritten. -/
def SceneToken.rewrite (f : List Action → List Action) (t : SceneToken) : SceneToken :=
  { t with sequel := t.sequel.map fun q => { q with actions := f q.actions } }

theorem SceneToken.fits_rewrite (σ : Staging) (t : SceneToken) :
    t.Fits σ.Fits (t.rewrite σ.rewrite) := by
  refine ⟨rfl, rfl, ?_⟩
  obtain ⟨request, answer, sequel, status⟩ := t
  cases sequel with
  | none => exact .none
  | some q => exact .some ⟨rfl, rfl⟩

/-- A world with the actions of its tokens rewritten, and with other counters and another trace. -/
def World.restage (w : World) (f : List Action → List Action) (counters : Counters)
    (trace : List Moment) : World :=
  { w with tokens := w.tokens.map (·.rewrite f), counters, trace }

/-- Two worlds that differ behind the scenes only. -/
def Restaged (σ : Staging) (u v : World) : Prop :=
  ∃ counters trace, σ.counters u.counters counters ∧ σ.trace u.trace trace ∧
    v = u.restage σ.rewrite counters trace

/-- A receiver that does not look behind the scenes. -/
structure Receiver.IgnoresStaging (σ : Staging) (r : Receiver) : Prop where
  removes : ∀ {u v : World}, Restaged σ u v → r.removes v = r.removes u
  answer : ∀ {u v : World}, Restaged σ u v → r.answer v = r.answer u
  acts : ∀ {u v : World}, Restaged σ u v → r.acts v = r.acts u

/-- No session does: it sees its game and the number of its scenes. -/
theorem Receiver.ignoresStaging_session (σ : Staging) (screen : Screen) :
    (Receiver.session screen).IgnoresStaging σ where
  removes := by
    rintro u _ ⟨counters, trace, -, -, rfl⟩
    rfl
  answer := by
    rintro u _ ⟨counters, trace, -, -, rfl⟩
    simp only [Receiver.session, World.restage, List.length_map]
  acts _ := rfl

namespace Restaged

variable {σ : Staging} {u v : World} {wiring : Wiring}

/-- Worlds without scenes are the same but for what may differ, so a run may start from one. -/
theorem start (state : SessionState) :
    Restaged σ { game := { state } } { game := { state } } :=
  ⟨{}, [], σ.counters_refl {}, σ.trace_refl [], rfl⟩

theorem game (h : Restaged σ u v) : v.game = u.game := by
  obtain ⟨counters, trace, -, -, rfl⟩ := h
  rfl

theorem depth (h : Restaged σ u v) : v.depth = u.depth := by
  obtain ⟨counters, trace, -, -, rfl⟩ := h
  rfl

theorem inFlight (h : Restaged σ u v) : v.inFlight = u.inFlight := by
  obtain ⟨counters, trace, -, -, rfl⟩ := h
  rfl

theorem journal (h : Restaged σ u v) : v.journal = u.journal := by
  obtain ⟨counters, trace, -, -, rfl⟩ := h
  rfl

theorem state (h : Restaged σ u v) : v.game.state = u.game.state := by rw [h.game]

/-- What changes neither tokens nor counters nor trace. -/
theorem carry (f : World → World)
    (hf : ∀ w counters trace, f (World.restage w σ.rewrite counters trace) =
      (f w).restage σ.rewrite counters trace)
    (hcounters : ∀ w, (f w).counters = w.counters) (htrace : ∀ w, (f w).trace = w.trace) :
    Carries (Restaged σ) f f := by
  rintro u _ ⟨counters, trace, hcount, hnote, rfl⟩
  rw [hf]
  exact ⟨counters, trace, by rwa [hcounters], by rwa [htrace], rfl⟩

theorem count (more : Counters) :
    Carries (Restaged σ) (·.count (·.plus more)) (·.count (·.plus more)) := by
  rintro u _ ⟨counters, trace, hcount, hnote, rfl⟩
  exact ⟨counters.plus more, trace, σ.counted more hcount, hnote, rfl⟩

theorem note (x : Happening) : Carries (Restaged σ) (·.note x) (·.note x) := by
  rintro u _ ⟨counters, trace, hcount, hnote, rfl⟩
  exact ⟨counters, ⟨x, u.game, u.depth⟩ :: trace, hcount, σ.noted _ hnote, rfl⟩

theorem changeGame (f : Game → Game) :
    Carries (Restaged σ) (·.changeGame f) (·.changeGame f) :=
  carry (·.changeGame f) (fun _ _ _ => rfl) (fun _ => rfl) fun _ => rfl

theorem guard (depth : UInt32) (inFlight : List Nat) :
    Carries (Restaged σ) (·.guard depth inFlight) (·.guard depth inFlight) :=
  carry (·.guard depth inFlight) (fun _ _ _ => rfl) (fun _ => rfl) fun _ => rfl

theorem write (f : List Entry → List Entry) :
    Carries (Restaged σ) (fun w => { w with journal := f w.journal })
      (fun w => { w with journal := f w.journal }) :=
  carry (fun w => { w with journal := f w.journal }) (fun _ _ _ => rfl) (fun _ => rfl) fun _ => rfl

/-- A token is used up in both worlds. -/
theorem spend (token : Nat) (status : TokenStatus) :
    Carries (Restaged σ) (·.spend token status) (·.spend token status) := by
  refine carry (·.spend token status) (fun w counters trace => ?_) (fun _ => rfl) fun _ => rfl
  have htokens : (w.tokens.map (·.rewrite σ.rewrite)).modify token (fun t => { t with status }) =
      (w.tokens.modify token fun t => { t with status }).map (·.rewrite σ.rewrite) := by
    apply List.ext_getElem?
    intro i
    rw [List.getElem?_modify, List.getElem?_map, List.getElem?_map, List.getElem?_modify]
    cases w.tokens[i]? with
    | none => rfl
    | some t =>
        simp only [Option.map_some, Option.map_eq_map]
        split <;> rfl
  unfold World.spend World.restage
  rw [htokens]

/-- A receiver that does not look behind the scenes cannot tell the worlds apart. -/
theorem unaware (hreceiver : wiring.receiver.IgnoresStaging σ) :
    Unaware wiring wiring σ.Fits (Restaged σ) where
  removes := hreceiver.removes
  answer := hreceiver.answer
  acts := hreceiver.acts
  tokens := by
    rintro u _ ⟨counters, trace, -, -, rfl⟩
    refine List.forall₂_map_right_iff.2 (List.forall₂_same.2 fun t _ => ?_)
    exact t.fits_rewrite σ
  noted := note
  acted a hresume := by
    cases a with
    | change f => exact changeGame f
    | park token =>
        exact carry (fun w => { w with queue := w.queue ++ [token] }) (fun _ _ _ => rfl)
          (fun _ => rfl) fun _ => rfl
    | keep token =>
        exact carry (fun w => { w with kept := w.kept ++ [token] }) (fun _ _ _ => rfl)
          (fun _ => rfl) fun _ => rfl
    | resume token => exact hresume token rfl
  logged entry := by
    intro u v h
    simp only [World.log]
    split
    · exact write (· ++ [entry]) h
    · exact h
  filled {u v} h kind answer := by
    intro u' v' h'
    simp only [World.fillIn, h.journal]
    split
    · exact write (·.modify u.journal.length (·.answered kind answer)) h'
    · exact h'
  handed request answer sequel sequel' hsequel := by
    -- the new token has the rewritten sequel in the second world
    have hnew : SceneToken.mk request answer sequel' .pending =
        (SceneToken.mk request answer sequel .pending).rewrite σ.rewrite := by
      cases hsequel with
      | none => rfl
      | @some q q' hq =>
          obtain ⟨engine, actions⟩ := q
          obtain ⟨engine', actions'⟩ := q'
          obtain ⟨hengine, hactions⟩ := hq
          cases hengine
          cases hactions
          rfl
    rintro u _ ⟨counters, trace, hcount, hnote, rfl⟩
    refine ⟨counters, trace, hcount, hnote, ?_⟩
    simp only [World.hand, World.restage, List.map_append, List.map_cons, List.map_nil, hnew]
  redeemed token _ _ h :=
    count { continuationsResumed := 1 } (note _ (spend token .resumed h))
  lapsed token _ _ h := note _ (spend token .lapsed h)

/-- What the host does to the queue is the same. -/
theorem hosted : Hosted (Restaged σ) where
  queue := by
    rintro u _ ⟨counters, trace, -, -, rfl⟩
    rfl
  kept := by
    rintro u _ ⟨counters, trace, -, -, rfl⟩
    rfl
  unqueued queue := carry (fun w => { w with queue }) (fun _ _ _ => rfl) (fun _ => rfl) fun _ => rfl

/-- A change of the guards that depends on the guards alone. -/
theorem guards (depth : UInt32 → UInt32) (inFlight : List Nat → List Nat) :
    Carries (Restaged σ) (fun w => w.guard (depth w.depth) (inFlight w.inFlight))
      (fun w => w.guard (depth w.depth) (inFlight w.inFlight)) := by
  intro u v h
  simp only [h.depth, h.inFlight]
  exact guard _ _ h

theorem entered : Carries (Restaged σ) World.enter World.enter := guards (· + 1) id

theorem left : Carries (Restaged σ) World.leave World.leave :=
  guards (fun depth => if depth = 0 then 0 else depth - 1) id

theorem dispatched (admitted : Bool) :
    Carries (Restaged σ) (fun w => w.note (.dispatched w.depth w.inFlight admitted))
      (fun w => w.note (.dispatched w.depth w.inFlight admitted)) := by
  intro u v h
  simp only [h.depth, h.inFlight]
  exact note _ h

theorem started : Carries (Restaged σ) World.started World.started :=
  count { actionsExecuted := 1 }

/-! ## The same settings -/

section Settings

variable {e e' : Engine} (hconfig : e'.config = e.config)

include hconfig

theorem conditionsHold (cs : List Condition) (s : SessionState) (h : Restaged σ u v) :
    Matches (Restaged σ) (e.conditionsHold cs s u) (e'.conditionsHold cs s v) := by
  rw [Engine.conditionsHold, Engine.conditionsHold, hconfig]
  exact ⟨rfl, count
    { unknownEvaluations := Condition.unknownsMet e.config.dispatch.unknownConditions s cs } h⟩

theorem triggerMatches (t : Trigger) (p : Payload) (s : SessionState) (h : Restaged σ u v) :
    Matches (Restaged σ) (e.triggerMatches t p s u) (e'.triggerMatches t p s v) := by
  rw [Engine.triggerMatches, Engine.triggerMatches, hconfig]
  exact ⟨rfl, count { unknownEvaluations := if t.kind.isUnknown then 1 else 0 } h⟩

end Settings

/-! ## Runs of the host -/

/-- What the host does between moves is the same: it reads the journal, drops engines and starts
others. -/
theorem drained : Carries (Restaged σ) (fun w => { w with journal := [] })
    (fun w => { w with journal := [] }) :=
  write fun _ => []

theorem renewed : Carries (Restaged σ)
    (fun w => { w with counters := {}, depth := 0, inFlight := [] })
    (fun w => { w with counters := {}, depth := 0, inFlight := [] }) := by
  rintro u _ ⟨counters, trace, -, hnote, rfl⟩
  exact ⟨{}, trace, σ.counters_refl {}, hnote, rfl⟩

end Restaged

/-- A pairing of worlds that differ behind the scenes only, of actions that are rewritten, and of
engines with the same settings whose catalogs are related by `C`. -/
def Staging.pairing (σ : Staging) (C : Catalog → Catalog → Prop) : Pairing where
  types _ := True
  fits := σ.Fits
  worlds := Restaged σ
  engines e e' := C e.catalog e'.catalog ∧ e'.config = e.config ∧ e'.serial = e.serial
  wirings wiring := wiring.receiver.IgnoresStaging σ

/-- Such a pairing is fair if its engines are kin. -/
theorem Staging.fair (σ : Staging) {C : Catalog → Catalog → Prop}
    {V : Verdict → Verdict → Prop} {pairs : Engine → Engine → Candidate → Candidate → Prop}
    (hkin : ∀ {e e' : Engine} {wiring : Wiring}, (σ.pairing C).engines e e' →
      wiring.receiver.IgnoresStaging σ →
      Kin e e' wiring wiring ⟨fun _ => True, pairs e e', σ.Fits⟩ V (Restaged σ)) :
    (σ.pairing C).Fair V where
  journal := Restaged.journal
  drained := Restaged.drained
  lost serial := Restaged.note (.engineLost serial)
  renewed := Restaged.renewed
  serial h := h.2.2
  level {p q} h := by
    have hunaware : Unaware p.wiring q.wiring σ.Fits (Restaged σ) := by
      rw [h.wiring]
      exact Restaged.unaware h.wired
    have hnesting : q.wiring.receiver.nesting = p.wiring.receiver.nesting := by rw [h.wiring]
    rcases rel_cases h.engine with ⟨hp, hq⟩ | ⟨e, e', hp, hq, hengines⟩
    · refine ⟨⟨fun _ => True, fun _ _ => True, σ.Fits⟩, Restaged σ,
        ⟨⟨h.world, ?_, hnesting⟩, hunaware, Restaged.hosted⟩, fun _ _ => trivial,
        fun _ _ hfits => hfits, fun hworld _ _ => hworld⟩
      rw [hp, hq]
      exact .none
    · refine ⟨⟨fun _ => True, pairs e e', σ.Fits⟩, Restaged σ,
        ⟨⟨h.world, ?_, hnesting⟩, hunaware, Restaged.hosted⟩, fun _ _ => trivial,
        fun _ _ hfits => hfits, fun hworld _ _ => hworld⟩
      rw [hp, hq, h.wiring]
      exact .some ⟨hengines.2.2, hkin hengines h.wired⟩

/-- The start of two plays over related catalogs. -/
theorem Staging.start (σ : Staging) {C : Catalog → Catalog → Prop} {c c' : Catalog} (hc : C c c')
    (config : EngineConfig) {wiring : Wiring} (hreceiver : wiring.receiver.IgnoresStaging σ)
    (state : SessionState) :
    (Play.start c config wiring state).Paired (σ.pairing C) (Play.start c' config wiring state) :=
  ⟨Restaged.start state, rfl, rfl, .some ⟨hc, rfl, rfl⟩, rfl, rfl, hreceiver⟩

end Narrative
