import Narrative.Proofs.Twins

set_option autoImplicit false

/-!
# Two runs of one engine

Two runs of one engine come to the same if their worlds stay related: the relation agrees on what
the engine reads, which is the session state and the guards, and survives what the engine does to
the world; for calls, scenes and resumptions, which are up to the wiring, this has to be shown
(`Parallel`). An engine is then its own twin, with every trigger type, candidate and action list
compared to itself (`Parallel.twins`), so its runs give the same answers and end in related
worlds (`Parallel.run`, `Parallel.execute`).

If the two receivers cannot tell related worlds apart, nothing has to be shown of calls and
scenes (`Blind.parallel`).
-/

namespace Narrative

/-- What a relation has to keep to for the runs of an engine under two wirings to come to the
same from related worlds on. -/
structure Parallel (e : Engine) (wiring wiring' : Wiring) (R : World → World → Prop) :
    Prop where
  state : ∀ {u v : World}, R u v → v.game.state = u.game.state
  depth : ∀ {u v : World}, R u v → v.depth = u.depth
  inFlight : ∀ {u v : World}, R u v → v.inFlight = u.inFlight
  counted : ∀ more, Carries R (·.count (·.plus more)) (·.count (·.plus more))
  noted : ∀ x, Carries R (·.note x) (·.note x)
  guarded : ∀ depth inFlight, Carries R (·.guard depth inFlight) (·.guard depth inFlight)
  recorded : ∀ event : Event, Carries R (·.changeGame event.record) (·.changeGame event.record)
  call : ∀ {k : Nat}, (e.reach wiring k).Parallel wiring R (e.reach wiring' k) →
    ∀ (x : Effect) {u v : World}, R u v →
      Matches R (u.perform wiring (e.reach wiring k).revive x)
        (v.perform wiring' (e.reach wiring' k).revive x)
  scene : ∀ {k : Nat}, (e.reach wiring k).Parallel wiring R (e.reach wiring' k) →
    ∀ (request : SceneRequest) (sequel : Sequel) {run run' : World → World}, Carries R run run' →
      Carries R (·.runScene wiring (e.reach wiring k).revive request sequel run)
        (·.runScene wiring' (e.reach wiring' k).revive request sequel run')
  resumption : ¬ wiring.receiver.IsDirect → ∀ {k : Nat},
    (∀ actions, Carries R (e.continueWith wiring (e.reach wiring k) actions)
      (e.continueWith wiring' (e.reach wiring' k) actions)) →
    ∀ token, Carries R (·.resume (e.follow wiring (e.reach wiring k)) token)
      (·.resume (e.follow wiring' (e.reach wiring' k)) token)

namespace Parallel

variable {e : Engine} {wiring wiring' : Wiring} {R : World → World → Prop} {k : Nat} {u v : World}

section Twins

variable (par : Parallel e wiring wiring' R)

include par

/-- A change of the guards that depends on the guards alone. -/
theorem guards (depth : UInt32 → UInt32) (inFlight : List Nat → List Nat) :
    Carries R (fun w => w.guard (depth w.depth) (inFlight w.inFlight))
      (fun w => w.guard (depth w.depth) (inFlight w.inFlight)) := by
  intro u v h
  simp only [par.depth h, par.inFlight h]
  exact par.guarded _ _ h

theorem conditionsHold (cs : List Condition) (s : SessionState) (h : R u v) :
    Matches R (e.conditionsHold cs s u) (e.conditionsHold cs s v) :=
  ⟨rfl, par.counted
    { unknownEvaluations := Condition.unknownsMet e.config.dispatch.unknownConditions s cs } h⟩

theorem triggerMatches (t : Trigger) (p : Payload) (s : SessionState) (h : R u v) :
    Matches R (e.triggerMatches t p s u) (e.triggerMatches t p s v) :=
  ⟨rfl, par.counted { unknownEvaluations := if t.kind.isUnknown then 1 else 0 } h⟩

/-- The interpreter meets the same whatever it tests. -/
theorem acting (hreach : (e.reach wiring k).Parallel wiring R (e.reach wiring' k)) :
    Acting e e wiring wiring' (fun _ => True) R (e.reach wiring k) (e.reach wiring' k) where
  state := par.state
  started := par.counted { actionsExecuted := 1 }
  test {test} _ s _ _ h := par.conditionsHold [test] s h
  call := par.call hreach
  scene request _ _ _ _ hrun := par.scene hreach request _ hrun
  raise := hreach.raise

/-- **An engine is its own twin.** -/
theorem twins : Twins e e wiring wiring' ⟨fun _ => True, Eq, Eq⟩ R where
  limit := rfl
  state := par.state
  depth := par.depth
  counted more _ := par.counted more
  stalled := par.noted .stalled
  dispatched admitted _ _ h := by
    simp only [par.depth h, par.inFlight h]
    exact par.noted _ h
  entered := par.guards (· + 1) id
  left := par.guards (fun depth => if depth = 0 then 0 else depth - 1) id
  raised := trivial
  candidates _ := List.forall₂_same.2 fun _ _ => rfl
  id := by
    rintro c _ rfl
    rfl
  repeatable := by
    rintro c _ rfl
    rfl
  actions := by
    rintro c _ rfl
    rfl
  conditions := by
    rintro c _ rfl s u v h
    exact par.conditionsHold c.event.conditions s h
  trigger := by
    rintro c _ rfl p s u v h
    exact par.triggerMatches c.event.trigger p s h
  flying := by
    rintro c _ rfl u v h
    rw [par.inFlight h]
  begun := by
    rintro c _ rfl u v h
    exact par.guards id (c.position :: ·) (par.noted (.began c) h)
  landed := by
    rintro c _ rfl
    exact par.guards id (·.erase c.position)
  recorded := par.recorded
  call := par.call
  runAll := by
    rintro k hreach actions _ rfl s u v h
    exact (par.acting hreach).runAll actions (fun _ _ => trivial) s h
  resumption hfree _ hruns token := par.resumption hfree (fun _ => hruns rfl) token

/-! ## What an engine does -/

/-- The ways out come to the same, however many nested calls they leave room for. -/
theorem reach (k : Nat) : (e.reach wiring k).Parallel wiring R (e.reach wiring' k) :=
  par.twins.kin.reach k

/-- An action comes to the same. -/
theorem run (hreach : (e.reach wiring k).Parallel wiring R (e.reach wiring' k)) (a : Action)
    (s : SessionState) (h : R u v) :
    Matches R (Action.run e wiring (e.reach wiring k) a s u)
      (Action.run e wiring' (e.reach wiring' k) a s v) :=
  (par.acting hreach).run a (fun _ _ => trivial) s h

/-- Actions that no event executes come to the same. -/
theorem execute (hclock : e.clock wiring' = e.clock wiring) (actions : List Action)
    (s : SessionState) (h : R u v) :
    Matches R (e.execute wiring actions s u) (e.execute wiring' actions s v) :=
  par.twins.kin.execute hclock rfl s h

end Twins

end Parallel

/-! ## What a receiver cannot tell -/

/-- Two receivers that do the same in related worlds, and a relation that survives what is done
to the world on their behalf. -/
structure Blind (wiring wiring' : Wiring) (R : World → World → Prop) : Prop where
  removes : ∀ {u v : World}, R u v → wiring'.receiver.removes v = wiring.receiver.removes u
  answer : ∀ {u v : World}, R u v → wiring'.receiver.answer v = wiring.receiver.answer u
  acts : ∀ {u v : World}, R u v → wiring'.receiver.acts v = wiring.receiver.acts u
  state : ∀ {u v : World}, R u v → v.game.state = u.game.state
  depth : ∀ {u v : World}, R u v → v.depth = u.depth
  inFlight : ∀ {u v : World}, R u v → v.inFlight = u.inFlight
  tokens : ∀ {u v : World}, R u v → v.tokens = u.tokens
  counted : ∀ more, Carries R (·.count (·.plus more)) (·.count (·.plus more))
  noted : ∀ x, Carries R (·.note x) (·.note x)
  guarded : ∀ depth inFlight, Carries R (·.guard depth inFlight) (·.guard depth inFlight)
  acted : ∀ {revive revive' : Nat → World → World} (a : Act),
    (∀ token, a = .resume token → Carries R (revive token) (revive' token)) →
    Carries R (a.carry revive) (a.carry revive')
  logged : ∀ entry, Carries R (·.log wiring entry) (·.log wiring' entry)
  /-- An answer is filled in at the end of what the journals were when a scene was asked for. -/
  filled : ∀ {u v : World}, R u v → ∀ kind answer,
    Carries R (·.fillIn wiring u.journal.length kind answer)
      (·.fillIn wiring' v.journal.length kind answer)
  handed : ∀ request answer sequel,
    Carries R (·.hand request answer sequel) (·.hand request answer sequel)
  spent : ∀ token status, Carries R (·.spend token status) (·.spend token status)

namespace Blind

variable {wiring wiring' : Wiring} {R : World → World → Prop} (blind : Blind wiring wiring' R)

include blind

theorem redeemed (token : Nat) : Carries R (·.redeem token) (·.redeem token) := fun h =>
  blind.counted { continuationsResumed := 1 } (blind.noted _ (blind.spent _ _ h))

/-- The tokens are the same, so corresponding sequels are equal. -/
theorem unaware : Unaware wiring wiring' Eq R where
  removes := blind.removes
  answer := blind.answer
  acts := blind.acts
  tokens h := by
    rw [blind.tokens h]
    exact List.forall₂_same.2 fun t _ => ⟨rfl, rfl, Sequel.fits_self fun _ _ => rfl⟩
  noted := blind.noted
  acted := blind.acted
  logged := blind.logged
  filled := blind.filled
  handed request answer := by
    intro sequel sequel' hsequel
    cases hsequel with
    | none => exact blind.handed request answer none
    | some hq =>
        rw [hq.eq]
        exact blind.handed request answer _
  redeemed := blind.redeemed
  lapsed token _ _ h := blind.noted _ (blind.spent _ _ h)

/-- Runs under two such receivers come to the same. -/
theorem parallel (e : Engine) : Parallel e wiring wiring' R where
  state := blind.state
  depth := blind.depth
  inFlight := blind.inFlight
  counted := blind.counted
  noted := blind.noted
  guarded := blind.guarded
  recorded event := blind.unaware.changed event.record
  call hreach x _ _ h := blind.unaware.perform hreach.revive x h
  scene hreach _ _ _ _ hrun := blind.unaware.runScene hreach.revive _ ⟨rfl, rfl⟩ hrun
  resumption _ _ hruns token := by
    refine blind.unaware.follow rfl ?_ token
    rintro actions _ rfl
    exact hruns actions

end Blind

end Narrative
