import Narrative.Proofs.Law

set_option autoImplicit false

/-!
# What the answer of a run says

With a receiver that resumes nothing but the token of a scene, a run says that it took
effect exactly if some call was accepted during it (`answer_iff_accepted`). If a game
session received the calls and nothing took effect, the game and its queue of scenes are
as they were, and the journal gained only refusals (`Untouched`).
-/

namespace Narrative

/-- What happened since an earlier world of the same run, newest first. -/
def World.since (u v : World) : List Moment :=
  v.trace.take (v.trace.length - u.trace.length)

/-- Whether a call is made that is not refused. Only taking items can be refused. -/
def Happening.isAcceptedCall : Happening → Bool
  | .called (.effect (.takeItem ..) accepted) => accepted
  | .called _ => true
  | _ => false

theorem Happening.isAcceptedCall_iff {x : Happening} :
    x.isAcceptedCall = true ↔ ∃ entry, x = .called entry ∧
      ∀ item quantity, entry ≠ .effect (.takeItem item quantity) false := by
  cases x with
  | called entry =>
      constructor
      · intro h
        refine ⟨entry, rfl, ?_⟩
        rintro item quantity rfl
        cases h
      · rintro ⟨entry', hentry, hnot⟩
        obtain rfl := Happening.called.inj hentry
        unfold Happening.isAcceptedCall
        split
        · next item quantity accepted h =>
            obtain rfl := Happening.called.inj h
            cases accepted with
            | true => rfl
            | false => exact absurd rfl (hnot item quantity)
        · rfl
        · next hno => exact absurd rfl (hno entry)
  | _ =>
      constructor
      · intro h
        cases h
      · rintro ⟨_, hentry, _⟩
        cases hentry

/-- Whether a call that was not refused was made since an earlier world. -/
def World.accepted (u v : World) : Bool := (u.since v).any (·.happening.isAcceptedCall)

namespace World

variable {u v w : World}

theorem since_of_trace {new : List Moment} (h : v.trace = new ++ u.trace) : u.since v = new := by
  rw [since, h, List.length_append, Nat.add_sub_cancel, List.take_left]

theorem since_cons {m : Moment} (h : v.trace = m :: u.trace) : u.since v = [m] :=
  since_of_trace (List.singleton_append ▸ h)

/-- What happened in one run after another, newest first. -/
theorem since_trans (huv : u.trace <:+ v.trace) (hvw : v.trace <:+ w.trace) :
    u.since w = v.since w ++ u.since v := by
  obtain ⟨new, hnew⟩ := huv
  obtain ⟨newer, hnewer⟩ := hvw
  have hboth : w.trace = (newer ++ new) ++ u.trace := by
    rw [List.append_assoc, hnew, hnewer]
  rw [since_of_trace hboth, since_of_trace hnew.symm, since_of_trace hnewer.symm]

theorem accepted_of_trace {new : List Moment} (h : v.trace = new ++ u.trace) :
    u.accepted v = new.any (·.happening.isAcceptedCall) := by
  rw [accepted, since_of_trace h]

/-- What happened in one run after another. -/
theorem accepted_trans (huv : u.trace <:+ v.trace) (hvw : v.trace <:+ w.trace) :
    u.accepted w = (u.accepted v || v.accepted w) := by
  rw [accepted, since_trans huv hvw, List.any_append, Bool.or_comm, accepted, accepted]

theorem accepted_self (w : World) : w.accepted w = false :=
  accepted_of_trace (List.nil_append _).symm

/-- Of one run after another a call was accepted if one was in either. -/
theorem composes_accepted : Composes fun _ u b v => b = u.accepted v where
  stay w := (accepted_self w).symm
  andThen huv hvw hb hb' := by
    rw [accepted_trans huv.trace hvw.trace, hb, hb']

theorem accepted_cons {m : Moment} (h : v.trace = m :: u.trace) :
    u.accepted v = m.happening.isAcceptedCall := by
  rw [accepted, since_cons h, List.any_cons, List.any_nil, Bool.or_false]

@[simp] theorem trace_log (w : World) (wiring : Wiring) (entry : Entry) :
    (w.log wiring entry).trace = w.trace := by
  obtain ⟨journal, hlog⟩ := w.exists_log wiring entry
  rw [hlog]

/-- A receiver that resumes nothing during a call adds nothing to the trace. -/
theorem trace_carryOut {revive : Nat → World → World} {acts : List Act}
    (hacts : ∀ token, .resume token ∉ acts) (w : World) :
    (w.carryOut revive acts).trace = w.trace := by
  induction acts generalizing w with
  | nil => rfl
  | cons a rest ih =>
      have hrest : ∀ token, .resume token ∉ rest :=
        fun token h => hacts token (List.mem_cons_of_mem a h)
      have hnext : (w.carryOut revive (a :: rest)).trace = (a.carry revive w).trace := ih hrest _
      rw [hnext]
      cases a with
      | change | park | keep => rfl
      | resume token => exact absurd List.mem_cons_self (hacts token)

end World

section Direct

variable {wiring : Wiring} (hdirect : wiring.receiver.IsDirect)

include hdirect

/-- A direct receiver resumes nothing during an effect. -/
theorem Receiver.IsDirect.not_resume {w : World} {x : Effect} (token : Nat) :
    .resume token ∉ wiring.receiver.acts w (.effect x) := by
  intro h
  obtain ⟨request, hcall⟩ := hdirect h
  cases hcall

/-- The call of an effect is all that happens during it. -/
theorem World.trace_perform {revive : Nat → World → World} (x : Effect) (w : World) :
    (w.perform wiring revive x).2.trace =
      ⟨.called (.effect x (w.perform wiring revive x).1), w.game, w.depth⟩ :: w.trace := by
  have hacts : ∀ v : World,
      (v.carryOut revive (wiring.receiver.acts w (.effect x))).trace = v.trace :=
    World.trace_carryOut hdirect.not_resume
  cases x <;> simp [World.perform, hacts, World.note]

/-- **The answer of a run says whether a call was accepted.** -/
theorem Law.accepted (e : Engine) (base : List Nat) :
    Law e wiring base fun _ u b v => b = u.accepted v where
  toComposes := World.composes_accepted
  tally w f _ := (World.accepted_self w).symm
  deed {k _} hrevive := World.composes_accepted.deed (.acting k) hrevive.steady fun {x} w _ => by
    rw [World.accepted_cons (World.trace_perform hdirect x w)]
    cases x <;> rfl
  scene {k revive run} hrevive hrun request sequel w _ := by
    have hcalled : Steady _ (w.runScene wiring revive request sequel run) :=
      .called_runScene hrevive.steady hrun.steady request sequel w
    have hasked : ((w.hand request (wiring.receiver.answer w request) (some sequel)).note
        (.called (.scene request (wiring.receiver.answer w request)))).trace = _ :: w.trace := rfl
    -- the request is an accepted call, whatever comes after it
    rw [World.accepted_trans (hasked ▸ List.suffix_cons _ _) hcalled.trace,
      World.accepted_cons hasked]
    rfl
  resumption hfree := (hfree hdirect).elim
  stall w := by
    rw [World.accepted_cons rfl]
    rfl
  refusal {k w} _ := by
    have hnoted : (Engine.refuseDispatch w).trace =
        ⟨.dispatched w.depth w.inFlight false, w.game, w.depth⟩ :: w.trace := rfl
    rw [World.accepted_cons hnoted]
    rfl
  nested {k u v b} _ hsteady hb := by
    have hopen : (Engine.openDispatch u).trace =
        ⟨.dispatched u.depth u.inFlight true, u.game, u.depth⟩ :: u.trace := rfl
    -- letting an occurrence in is no call
    have hall : u.accepted v = (u.accepted _ || _) :=
      World.accepted_trans (hopen ▸ List.suffix_cons _ _) hsteady.trace
    rw [World.accepted_cons hopen, ← hb] at hall
    exact hall.symm
  flight {k revive t c w v took} hrevive _ _ _ _ hsteady htook := by
    have hbegin : (Engine.begin c w).trace = ⟨.began c, w.game, w.depth⟩ :: w.trace := rfl
    -- neither is beginning an event
    have hall : w.accepted v = (w.accepted _ || _) :=
      World.accepted_trans (hbegin ▸ List.suffix_cons _ _) hsteady.trace
    rw [World.accepted_cons hbegin, ← htook] at hall
    have hland : Steady w (v.land c.position) := .land hsteady
    split
    · next htrue =>
        -- the announcement is a call, but the answer is yes already
        rw [World.accepted_trans hland.trace (Steady.announce hrevive.steady c.event _).trace]
        have hlanded : w.accepted (v.land c.position) = w.accepted v := rfl
        rw [hlanded, hall, htrue]
        rfl
    · exact hall.symm
  mute hfree := (hfree hdirect).elim

end Direct

/-! ## Runs without effect -/

/-- The game and the queue of scenes are as they were, and the journal gained only refusals. -/
structure Untouched (u v : World) : Prop where
  game : v.game = u.game
  queue : v.queue = u.queue
  journal : ∃ refusals, v.journal = u.journal ++ refusals ∧
    ∀ entry ∈ refusals, ∃ item quantity, entry = .effect (.takeItem item quantity) false

namespace Untouched

variable {u v w : World}

/-- A change that leaves the game, the queue and the journal alone. -/
theorem same (hgame : v.game = u.game) (hqueue : v.queue = u.queue)
    (hjournal : v.journal = u.journal) : Untouched u v := by
  refine ⟨hgame, hqueue, [], ?_, fun _ h => absurd h List.not_mem_nil⟩
  rw [hjournal, List.append_nil]

theorem refl (w : World) : Untouched w w := .same rfl rfl rfl

theorem trans (huv : Untouched u v) (hvw : Untouched v w) : Untouched u w where
  game := hvw.game.trans huv.game
  queue := hvw.queue.trans huv.queue
  journal := by
    obtain ⟨l, hl, hrefused⟩ := huv.journal
    obtain ⟨l', hl', hrefused'⟩ := hvw.journal
    refine ⟨l ++ l', by rw [hl', hl, List.append_assoc], fun entry hentry => ?_⟩
    rcases List.mem_append.1 hentry with h | h
    · exact hrefused entry h
    · exact hrefused' entry h

/-- A refused effect leaves the game of a session as it was. -/
theorem perform {wiring : Wiring} {screen : Screen} (hsession : wiring.receiver = .session screen)
    {revive : Nat → World → World} {x : Effect} (w : World)
    (hrefused : (w.perform wiring revive x).1 = false) :
    Untouched w (w.perform wiring revive x).2 := by
  cases x with
  | takeItem item quantity =>
      have hnot : w.game.accepts (.takeItem item quantity) = false := by
        simpa [World.perform, Receiver.accepts, hsession, Receiver.session] using hrefused
      -- what is refused is not applied either
      have hsame : w.game.apply (.takeItem item quantity) = w.game := Game.apply_of_not_accepts hnot
      have hafter : (w.perform wiring revive (.takeItem item quantity)).2 =
          (w.note (.called (.effect (.takeItem item quantity) false))).log wiring
            (.effect (.takeItem item quantity) false) := by
        simp [World.perform, Receiver.accepts, hsession, Receiver.session, World.carryOut,
          Act.carry, World.changeGame, World.note, hnot, hsame]
      rw [hafter]
      unfold World.log
      split
      · refine ⟨rfl, rfl, [_], rfl, fun entry hentry => ?_⟩
        exact ⟨item, quantity, List.mem_singleton.1 hentry⟩
      · exact .same rfl rfl rfl
  | _ => cases hrefused

end Untouched

/-- One run after another takes no effect only if neither does. -/
theorem Untouched.composes : Composes fun _ u b v => b = false → Untouched u v where
  stay w _ := .refl w
  andThen _ _ hb hb' hboth := by
    obtain ⟨h, h'⟩ := Bool.or_eq_false_iff.1 hboth
    exact (hb h).trans (hb' h')

/-- **A run over a session that takes no effect leaves it untouched.** -/
theorem Law.untouched (e : Engine) {wiring : Wiring} {screen : Screen}
    (hsession : wiring.receiver = .session screen) (base : List Nat) :
    Law e wiring base fun _ u b v => b = false → Untouched u v where
  toComposes := Untouched.composes
  tally _ _ _ _ := .same rfl rfl rfl
  deed {k _} hrevive := Untouched.composes.deed (.acting k) hrevive.steady
    fun w _ hrefused => .perform hsession w hrefused
  scene _ _ _ _ _ _ h := absurd h (by decide)
  resumption _ _ _ _ _ _ := ⟨true, fun h => absurd h (by decide)⟩
  stall _ _ := .same rfl rfl rfl
  refusal _ _ := .same rfl rfl rfl
  nested _ _ hb hnone :=
    have hbetween := hb hnone
    ⟨hbetween.game, hbetween.queue, hbetween.journal⟩
  flight {k revive t c w v took} _ _ _ _ _ _ hb hnone := by
    subst hnone
    have hbetween := hb rfl
    exact ⟨hbetween.game, hbetween.queue, hbetween.journal⟩
  mute hfree := by
    rw [hsession] at hfree
    exact (hfree (Receiver.isDirect_session screen)).elim

/-- **A run answers that it took effect exactly if a call was accepted during it**, that is, a
call other than a taking of items that was refused, provided that the receiver is direct. This
holds of actions run against any state and of occurrences, in any world. If a session received
the calls and nothing took effect, the session is as it was, and only refusals are on record. -/
theorem answer_iff_accepted (e : Engine) {wiring : Wiring} (hdirect : wiring.receiver.IsDirect) :
    (∀ actions s (w : World), (e.execute wiring actions s w).1 = true ↔
      ∃ m ∈ w.since (e.execute wiring actions s w).2, ∃ entry, m.happening = .called entry ∧
        ∀ item quantity, entry ≠ .effect (.takeItem item quantity) false) ∧
    (∀ actions (w : World), (e.perform wiring actions w).1 = true ↔
      ∃ m ∈ w.since (e.perform wiring actions w).2, ∃ entry, m.happening = .called entry ∧
        ∀ item quantity, entry ≠ .effect (.takeItem item quantity) false) ∧
    (∀ t payload (w : World), (e.handle wiring t payload w).1.anyFired = true ↔
      ∃ m ∈ w.since (e.handle wiring t payload w).2, ∃ entry, m.happening = .called entry ∧
        ∀ item quantity, entry ≠ .effect (.takeItem item quantity) false) ∧
    ∀ screen, wiring.receiver = .session screen →
      (∀ actions s w, (e.execute wiring actions s w).1 = false →
        Untouched w (e.execute wiring actions s w).2) ∧
      (∀ actions w, (e.perform wiring actions w).1 = false →
        Untouched w (e.perform wiring actions w).2) ∧
      ∀ t payload w, (e.handle wiring t payload w).1.anyFired = false →
        Untouched w (e.handle wiring t payload w).2 := by
  have hcalls : ∀ {u v : World} {b : Bool}, b = u.accepted v → (b = true ↔ ∃ m ∈ u.since v,
      ∃ entry, m.happening = .called entry ∧
        ∀ item quantity, entry ≠ .effect (.takeItem item quantity) false) := by
    rintro u v b rfl
    rw [World.accepted, List.any_eq_true]
    refine exists_congr fun m => and_congr_right fun _ => ?_
    exact Happening.isAcceptedCall_iff
  have hexecute := fun actions s (w : World) =>
    ((Law.accepted hdirect e w.inFlight).execute actions s w).law
  refine ⟨fun actions s w => hcalls (hexecute actions s w), fun actions w =>
    hcalls (hexecute actions w.game.state w), fun t payload w => ?_, fun screen hsession => ?_⟩
  · exact hcalls ((Law.accepted hdirect e w.inFlight).handle rfl t payload).law
  · have law := Law.untouched e hsession
    refine ⟨fun actions s w => ?_, fun actions w => ?_, fun t payload w => ?_⟩
    · exact ((law w.inFlight).execute actions s w).law
    · exact ((law w.inFlight).execute actions w.game.state w).law
    · exact ((law w.inFlight).handle rfl t payload).law

/-- An item that is not held is not taken, and trying leaves the session as it was. -/
theorem missing_item_untouched : (Receiver.session .park).IsDirect ∧
    Untouched {} (Engine.execute {} ⟨.session .park, true⟩
      [.deed (.takeItem (some "lamp") 1)] {} {}).2 :=
  ⟨Receiver.isDirect_session .park,
    ((answer_iff_accepted {} (Receiver.isDirect_session .park)).2.2.2 .park rfl).1 _ _ _ rfl⟩

end Narrative
