import Narrative.Proofs.Parallel

set_option autoImplicit false

/-!
# What a list of actions reads of its snapshot

A list of actions is run against a snapshot, and only its branches read it. So the branches
can be taken in advance (`Action.resolveAll`): the list that is left does the same, against
whatever snapshot (`branches_read_their_snapshot`). What follows a scene reads a snapshot of
its own and is left as it is.

The two runs differ in how many actions they count, since a branch is one too, and in how
many unknown conditions they look at. A receiver must not look at these two counts
(`Receiver.IgnoresTally`); no session does.
-/

namespace Narrative

namespace Action

mutual

/-- What an action comes to once its branches are taken in a state. A cinematic that names no
scene is over at once, so what follows it belongs to the same list. -/
def resolve (policy : UnknownPolicy) (s : SessionState) : Action → List Action
  | .branch test thenDo elseDo =>
      if test.holds policy s then resolveAll policy s thenDo else resolveAll policy s elseDo
  | .playCinematic none onComplete => resolveAll policy s onComplete
  | a => [a]

/-- What a list of actions comes to once its branches are taken in a state. -/
def resolveAll (policy : UnknownPolicy) (s : SessionState) : List Action → List Action
  | [] => []
  | a :: rest => resolve policy s a ++ resolveAll policy s rest

end

/-- Whether an action does the same against every snapshot. -/
def IsSettled : Action → Prop
  | .branch .. | .playCinematic none _ => False
  | _ => True

/-- A settled action is all that is left of itself. -/
theorem resolve_of_isSettled {a : Action} (ha : a.IsSettled) (policy : UnknownPolicy)
    (s : SessionState) : resolve policy s a = [a] := by
  cases a with
  | branch => exact ha.elim
  | playCinematic scene onComplete =>
      rcases scene with _ | scene
      · exact ha.elim
      · simp [resolve]
  | deed | systemTutorial | playerAction | unknown => simp [resolve]

mutual

theorem settled_of_mem_resolve {policy : UnknownPolicy} {s : SessionState} {a b : Action}
    (hb : b ∈ resolve policy s a) : b.IsSettled := by
  cases a with
  | branch test thenDo elseDo =>
      simp only [resolve] at hb
      split at hb
      · exact settled_of_mem_resolveAll hb
      · exact settled_of_mem_resolveAll hb
  | playCinematic scene onComplete =>
      rcases scene with _ | scene
      · simp only [resolve] at hb
        exact settled_of_mem_resolveAll hb
      · rw [resolve_of_isSettled (by trivial), List.mem_singleton] at hb
        rw [hb]
        trivial
  | deed | systemTutorial | playerAction | unknown =>
      rw [resolve_of_isSettled (by trivial), List.mem_singleton] at hb
      rw [hb]
      trivial

/-- No branch is left. -/
theorem settled_of_mem_resolveAll {policy : UnknownPolicy} {s : SessionState}
    {actions : List Action} {b : Action} (hb : b ∈ resolveAll policy s actions) :
    b.IsSettled := by
  cases actions with
  | nil =>
      simp only [resolveAll] at hb
      cases hb
  | cons a rest =>
      simp only [resolveAll, List.mem_append] at hb
      rcases hb with hb | hb
      · exact settled_of_mem_resolve hb
      · exact settled_of_mem_resolveAll hb

end

end Action

/-! ## Worlds that differ in a tally -/

/-- The world with other counts of the actions run and the unknown types met. -/
def World.retally (w : World) (actions unknowns : Nat) : World :=
  w.count fun n => { n with actionsExecuted := actions, unknownEvaluations := unknowns }

/-- One world is another up to the counts of the actions run and the unknown types met. -/
def Retallied (u v : World) : Prop :=
  ∃ actions unknowns, v = u.retally actions unknowns

/-- A receiver that does the same whatever the counts of the actions run and the unknown types
met. -/
structure Receiver.IgnoresTally (r : Receiver) : Prop where
  removes : ∀ w actions unknowns, r.removes (World.retally w actions unknowns) = r.removes w
  answer : ∀ w actions unknowns, r.answer (World.retally w actions unknowns) = r.answer w
  acts : ∀ w actions unknowns, r.acts (World.retally w actions unknowns) = r.acts w

/-- No session looks at the counts. -/
theorem Receiver.ignoresTally_session (screen : Screen) :
    (Receiver.session screen).IgnoresTally where
  removes _ _ _ := rfl
  answer _ _ _ := rfl
  acts _ _ _ := rfl

namespace Retallied

variable {e : Engine} {wiring : Wiring} {u v : World}

theorem refl (w : World) : Retallied w w := ⟨_, _, rfl⟩

/-- Counting one of the two counts is not seen. -/
theorem count (h : Retallied u v) {f : Counters → Counters}
    (hf : ∀ n : Counters, f n = { n with
      actionsExecuted := (f n).actionsExecuted, unknownEvaluations := (f n).unknownEvaluations }) :
    Retallied (u.count f) v := by
  obtain ⟨actions, unknowns, rfl⟩ := h
  refine ⟨actions, unknowns, ?_⟩
  unfold World.retally World.count
  rw [hf u.counters]

theorem started (h : Retallied u v) : Retallied u.started v := h.count fun _ => rfl

theorem conditionsHold (h : Retallied u v) (cs : List Condition) (s : SessionState) :
    Retallied (e.conditionsHold cs s u).2 v :=
  h.count fun _ => rfl

/-- A receiver that ignores the tally cannot tell the two worlds apart. -/
theorem blind (hreceiver : wiring.receiver.IgnoresTally) : Blind wiring wiring Retallied where
  removes := by
    rintro u _ ⟨actions, unknowns, rfl⟩
    exact hreceiver.removes u actions unknowns
  answer := by
    rintro u _ ⟨actions, unknowns, rfl⟩
    exact hreceiver.answer u actions unknowns
  acts := by
    rintro u _ ⟨actions, unknowns, rfl⟩
    exact hreceiver.acts u actions unknowns
  state := by
    rintro u _ ⟨_, _, rfl⟩
    rfl
  depth := by
    rintro u _ ⟨_, _, rfl⟩
    rfl
  inFlight := by
    rintro u _ ⟨_, _, rfl⟩
    rfl
  tokens := by
    rintro u _ ⟨_, _, rfl⟩
    rfl
  counted more := by
    rintro u _ ⟨actions, unknowns, rfl⟩
    exact ⟨actions + more.actionsExecuted, unknowns + more.unknownEvaluations, rfl⟩
  noted _ := by
    rintro u _ ⟨_, _, rfl⟩
    exact ⟨_, _, rfl⟩
  guarded _ _ := by
    rintro u _ ⟨_, _, rfl⟩
    exact ⟨_, _, rfl⟩
  acted a hrevive := by
    intro u v h
    cases a with
    | resume token => exact hrevive token rfl h
    | change | park | keep =>
        obtain ⟨_, _, rfl⟩ := h
        exact ⟨_, _, rfl⟩
  logged entry := by
    rintro u _ ⟨actions, unknowns, rfl⟩
    simp only [World.log]
    split
    · exact ⟨actions, unknowns, rfl⟩
    · exact ⟨actions, unknowns, rfl⟩
  filled := by
    rintro _ _ ⟨_, _, rfl⟩ kind answer w _ ⟨actions, unknowns, rfl⟩
    simp only [World.fillIn]
    split
    · exact ⟨actions, unknowns, rfl⟩
    · exact ⟨actions, unknowns, rfl⟩
  handed _ _ _ := by
    rintro u _ ⟨_, _, rfl⟩
    exact ⟨_, _, rfl⟩
  spent _ _ := by
    rintro u _ ⟨_, _, rfl⟩
    exact ⟨_, _, rfl⟩

end Retallied

/-! ## Running what is left of a list -/

/-- The runs of two lists, one after the other. -/
theorem Action.runAll_append (e : Engine) (wiring : Wiring) (reach : Reach)
    (actions more : List Action) (s : SessionState) (w : World) :
    Action.runAll e wiring reach (actions ++ more) s w =
      ((Action.runAll e wiring reach actions s w).1 ||
          (Action.runAll e wiring reach more s (Action.runAll e wiring reach actions s w).2).1,
        (Action.runAll e wiring reach more s (Action.runAll e wiring reach actions s w).2).2) := by
  induction actions generalizing w with
  | nil => simp [Action.runAll]
  | cons a rest ih => simp [Action.runAll, ih, Bool.or_assoc]

/-- A branch runs the list that its test decides for. -/
theorem Action.run_branch (e : Engine) (wiring : Wiring) (reach : Reach) (test : Condition)
    (thenDo elseDo : List Action) (s : SessionState) (w : World) :
    Action.run e wiring reach (.branch test thenDo elseDo) s w =
      if test.holds e.config.dispatch.unknownConditions s then
        Action.runAll e wiring reach thenDo s (e.conditionsHold [test] s w.started).2
      else Action.runAll e wiring reach elseDo s (e.conditionsHold [test] s w.started).2 := by
  have htest : (e.conditionsHold [test] s w.started).1 =
      test.holds e.config.dispatch.unknownConditions s := by
    simp [Engine.conditionsHold, Condition.allHold]
  simp only [Action.run, htest]

theorem Action.runAll_singleton (e : Engine) (wiring : Wiring) (reach : Reach) (a : Action)
    (s : SessionState) (w : World) :
    Action.runAll e wiring reach [a] s w = Action.run e wiring reach a s w := by
  simp [Action.runAll]

section Resolve

variable {e : Engine} {wiring : Wiring} {k : Nat}

/-- An action without a branch of its own does the same against every snapshot. -/
theorem Action.run_of_isSettled {a : Action} (ha : a.IsSettled) (reach : Reach)
    (s s' : SessionState) (w : World) :
    Action.run e wiring reach a s' w = Action.run e wiring reach a s w := by
  cases a with
  | branch => exact ha.elim
  | playCinematic scene onComplete =>
      rcases scene with _ | scene
      · exact ha.elim
      · simp only [Action.run]
  | playerAction action item => rcases action with _ | action <;> simp only [Action.run]
  | deed | systemTutorial | unknown => simp only [Action.run]

theorem Action.run_resolve_of_isSettled (hreceiver : wiring.receiver.IgnoresTally) {a : Action}
    (ha : a.IsSettled) (s s' : SessionState) {u v : World} (h : Retallied u v) :
    Matches Retallied (Action.run e wiring (e.reach wiring k) a s u)
      (Action.runAll e wiring (e.reach wiring k)
        (a.resolve e.config.dispatch.unknownConditions s) s' v) := by
  have par := (Retallied.blind hreceiver).parallel e
  rw [Action.resolve_of_isSettled ha, Action.runAll_singleton, Action.run_of_isSettled ha _ s s']
  exact par.run (par.reach k) a s h

mutual

/-- What is left of an action does the same. -/
theorem Action.run_resolve (hreceiver : wiring.receiver.IgnoresTally) (a : Action)
    (s s' : SessionState) {u v : World} (h : Retallied u v) :
    Matches Retallied (Action.run e wiring (e.reach wiring k) a s u)
      (Action.runAll e wiring (e.reach wiring k)
        (a.resolve e.config.dispatch.unknownConditions s) s' v) := by
  cases a with
  | branch test thenDo elseDo =>
      -- the branch itself is counted in one run only
      have htested : Retallied (e.conditionsHold [test] s u.started).2 v :=
        h.started.conditionsHold [test] s
      rw [Action.run_branch, Action.resolve]
      split
      · exact Action.runAll_resolveAll hreceiver thenDo s s' htested
      · exact Action.runAll_resolveAll hreceiver elseDo s s' htested
  | playCinematic scene onComplete =>
      rcases scene with _ | scene
      · simp only [Action.run, Action.resolve]
        exact Action.runAll_resolveAll hreceiver onComplete s s' h.started
      · exact Action.run_resolve_of_isSettled hreceiver (by trivial) s s' h
  | deed | systemTutorial | playerAction | unknown =>
      exact Action.run_resolve_of_isSettled hreceiver (by trivial) s s' h

/-- What is left of a list of actions does the same. -/
theorem Action.runAll_resolveAll (hreceiver : wiring.receiver.IgnoresTally) (actions : List Action)
    (s s' : SessionState) {u v : World} (h : Retallied u v) :
    Matches Retallied (Action.runAll e wiring (e.reach wiring k) actions s u)
      (Action.runAll e wiring (e.reach wiring k)
        (Action.resolveAll e.config.dispatch.unknownConditions s actions) s' v) := by
  cases actions with
  | nil =>
      simp only [Action.runAll, Action.resolveAll]
      exact ⟨rfl, h⟩
  | cons a rest =>
      have hfirst := Action.run_resolve hreceiver a s s' h
      have hrest := Action.runAll_resolveAll hreceiver rest s s' hfirst.world
      rw [Action.resolveAll, Action.runAll_append]
      simp only [Action.runAll]
      refine ⟨?_, hrest.world⟩
      rw [hfirst.answer, hrest.answer]

end

end Resolve

/-- **The branches of a list are decided by the snapshot it was started with**, and nothing else
in the list depends on that snapshot. The list that is left once its branches are taken has
none any more; against any snapshot whatever it answers the same, and it leaves the same
world: the same calls, the same game, the same tokens and guards. The counts of the actions
run and the unknown types met may differ. This holds of what the host executes and of
whatever is run further inside. -/
theorem branches_read_their_snapshot (e : Engine) {wiring : Wiring}
    (hreceiver : wiring.receiver.IgnoresTally) (actions : List Action) (s s' : SessionState)
    (w : World) :
    let settled := Action.resolveAll e.config.dispatch.unknownConditions s actions
    (∀ a ∈ settled, a.IsSettled) ∧
    Matches Retallied (e.execute wiring actions s w) (e.execute wiring settled s' w) ∧
    ∀ k, Matches Retallied (Action.runAll e wiring (e.reach wiring k) actions s w)
      (Action.runAll e wiring (e.reach wiring k) settled s' w) := by
  intro settled
  have hinside := fun k =>
    Action.runAll_resolveAll (e := e) (k := k) hreceiver actions s s' (.refl w)
  exact ⟨fun _ => Action.settled_of_mem_resolveAll, hinside (e.clock wiring), hinside⟩

/-- A first branch makes the test of a second one fail, and a third stands in what follows a
scene that is left out. All three are decided before. -/
theorem promise_is_decided_before :
    let promised : Condition := .milestoneNotSet "promised"
    let promise : Action := .deed (.setMilestone (some "promised"))
    let reward : Action := .deed (.giveXp (some 5))
    let actions : List Action := [.branch promised [promise] [],
      .playCinematic none [.branch promised [reward] []], .branch promised [] [reward]]
    (Receiver.session .park).IgnoresTally ∧
    Matches Retallied (Engine.execute {} ⟨.session .park, true⟩ actions {} {})
      (Engine.execute {} ⟨.session .park, true⟩ [promise, reward]
        { milestones := IdSet.ofIds ["promised"] } {}) := by
  intro promised promise reward actions
  exact ⟨Receiver.ignoresTally_session .park, (branches_read_their_snapshot {}
    (Receiver.ignoresTally_session .park) actions {} _ {}).2.1⟩

end Narrative
