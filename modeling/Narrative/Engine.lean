import Narrative.Receiver

set_option autoImplicit false

/-!
# The engine

`Engine.dispatch` answers an occurrence. It reads one snapshot of the session state
and goes through the candidates of the trigger type in catalog order; a candidate
fires if it is not recorded as fired, is not being executed further up, has
conditions and a trigger that hold in the snapshot, and has an action that takes
effect. A dispatch that would be nested deeper than the settings allow is refused.

Actions may raise player actions, which are dispatched inside the dispatch that runs
them, and a receiver may resume a token inside any call. `Action.run` is the
interpreter: it recurses on the action and reaches both only through the functions it
is given (`Reach`). `Engine.reach` supplies these by recursion on a clock, the number
of calls that may be nested.
-/

namespace Narrative

/-- An engine: its catalog, its settings, and the number that tells it from the other engines
of a run. -/
structure Engine where
  catalog : Catalog := ∅
  config : EngineConfig := {}
  serial : Nat := 0

/-- What became of a candidate. -/
inductive Verdict where
  | completed
  | inFlight
  | failsConditions
  | failsTrigger
  | noEffect
  | fired
deriving DecidableEq, Repr

/-- Whether the actions of a candidate were executed. -/
def Verdict.isExecuted : Verdict → Bool
  | .noEffect | .fired => true
  | _ => false

/-- What happened in a dispatch: the id and the verdict of every candidate, in catalog order.
A refused dispatch has none. -/
structure Report where
  triggerType : String
  refused : Bool
  rulings : List (String × Verdict)
deriving DecidableEq, Repr

namespace Report

/-- The number of candidates with a verdict. -/
def countOf (r : Report) (v : Verdict) : Nat := r.rulings.countP (·.2 == v)

/-- The number of candidates. -/
def considered (r : Report) : Nat := r.rulings.length

/-- The ids of the events that fired, in order. -/
def fired (r : Report) : List String :=
  (r.rulings.filter (·.2 == .fired)).map (·.1)

/-- Whether any event fired. -/
def anyFired (r : Report) : Bool := !r.fired.isEmpty

end Report

/-- The ways out of an action list: dispatching a player action, which says whether any event
fired, and resuming a token of another scene. -/
structure Reach where
  raise : Payload → World → Bool × World
  revive : Nat → World → World

/-! ## Interpreting actions -/

namespace Engine

/-- Whether a list of conditions holds in a state. Unknown types are decided by policy and
counted as far as they are looked at. -/
def conditionsHold (e : Engine) (cs : List Condition) (s : SessionState) (w : World) :
    Bool × World :=
  let policy := e.config.dispatch.unknownConditions
  (Condition.allHold policy s cs, w.count fun n =>
    { n with unknownEvaluations := n.unknownEvaluations + Condition.unknownsMet policy s cs })

/-- Whether a trigger matches a payload in a state. An unknown type is decided by policy and
counted. -/
def triggerMatches (e : Engine) (t : Trigger) (p : Payload) (s : SessionState) (w : World) :
    Bool × World :=
  (t.isMatch e.config.dispatch.unknownTriggers p s, w.count fun n =>
    { n with unknownEvaluations := n.unknownEvaluations + if t.kind.isUnknown then 1 else 0 })

end Engine

mutual

/-- Interprets an action against a snapshot; says whether it took effect. A scene always
does; what follows it reads a snapshot of its own. -/
def Action.run (e : Engine) (wiring : Wiring) (reach : Reach) :
    Action → SessionState → World → Bool × World
  | .deed d, _, w => w.started.performAll wiring reach.revive d.effects
  | .branch test thenDo elseDo, s, w =>
      let (holds, w) := e.conditionsHold [test] s w.started
      if holds then Action.runAll e wiring reach thenDo s w
      else Action.runAll e wiring reach elseDo s w
  | .playCinematic none onComplete, s, w => Action.runAll e wiring reach onComplete s w.started
  | .playCinematic (some scene) onComplete, _, w =>
      (true, w.started.runScene wiring reach.revive (.cinematic scene) ⟨e.serial, onComplete⟩
        fun w => (Action.runAll e wiring reach onComplete w.game.state w).2)
  | .systemTutorial scene context onComplete, _, w =>
      (true, w.started.runScene wiring reach.revive (.tutorial scene context)
        ⟨e.serial, onComplete⟩
        fun w => (Action.runAll e wiring reach onComplete w.game.state w).2)
  | .playerAction none _, _, w => (false, w.started)
  | .playerAction (some action) item, _, w => reach.raise (.playerAction action item) w.started
  | .unknown _, _, w => (false, w.started)

/-- Interprets actions in order against one snapshot; says whether any took effect. -/
def Action.runAll (e : Engine) (wiring : Wiring) (reach : Reach) :
    List Action → SessionState → World → Bool × World
  | [], _, w => (false, w)
  | a :: rest, s, w =>
      let (took, w) := Action.run e wiring reach a s w
      let (any, w) := Action.runAll e wiring reach rest s w
      (took || any, w)

end

namespace Engine

/-- Runs what follows a scene against the current state. -/
def continueWith (e : Engine) (wiring : Wiring) (reach : Reach) (actions : List Action)
    (w : World) : World :=
  (Action.runAll e wiring reach actions w.game.state w).2

/-- How a sequel is run: by the engine that asked for its scene, and by no other. -/
def follow (e : Engine) (wiring : Wiring) (reach : Reach) (sequel : Sequel) :
    Option (World → World) :=
  if sequel.engine = e.serial then some (e.continueWith wiring reach sequel.actions) else none

/-! ## Dispatching -/

/-- Goes through candidates in order. `rule` is told whether the actions of an earlier one
were executed. -/
def sweep (rule : Bool → Candidate → World → Verdict × World) :
    Bool → List Candidate → World → List (String × Verdict) × World
  | _, [], w => ([], w)
  | ran, c :: rest, w =>
      let (verdict, w) := rule ran c w
      let (rulings, w) := sweep rule (ran || verdict.isExecuted) rest w
      ((c.event.id, verdict) :: rulings, w)

/-- Begins to execute the actions of a candidate, which is in flight from then on. -/
def begin (c : Candidate) (w : World) : World := (w.note (.began c)).takeOff c.position

/-- Executes the actions of a candidate against a snapshot; says whether any took effect. -/
def fly (e : Engine) (wiring : Wiring) (reach : Reach) (s : SessionState) (c : Candidate)
    (w : World) : Bool × World :=
  let (took, w) := Action.runAll e wiring reach c.event.actions s (begin c w)
  (took, w.land c.position)

/-- Records that an event fired, if it must not fire again, and announces it, if it has an
id. -/
def announce (wiring : Wiring) (revive : Nat → World → World) (event : Event) (w : World) :
    World :=
  let w := w.changeGame event.record
  let w :=
    if event.hasId then (w.perform wiring revive (.eventCompleted event.id)).2 else w
  w.count fun n => { n with eventsFired := n.eventsFired + 1 }

/-- Decides about one candidate of a dispatch with a given snapshot and payload, and executes
it if nothing stands against that. Once actions have run, an event may have been recorded by
a dispatch inside, so the record is read again. -/
def rule (e : Engine) (wiring : Wiring) (reach : Reach) (s : SessionState) (payload : Payload)
    (ran : Bool) (c : Candidate) (w : World) : Verdict × World :=
  if c.event.isCompleted s then (.completed, w)
  else if w.inFlight.contains c.position then
    (.inFlight, w.count fun n => { n with cyclesSkipped := n.cyclesSkipped + 1 })
  else
    let (holds, w) := e.conditionsHold c.event.conditions s w
    if !holds then (.failsConditions, w)
    else
      let (isMatch, w) := e.triggerMatches c.event.trigger payload s w
      if !isMatch then (.failsTrigger, w)
      -- the record may be newer than the snapshot once actions have run
      else if ran && c.event.isCompleted w.game.state then (.completed, w)
      else
        let (took, w) := e.fly wiring reach s c w
        if took then (.fired, announce wiring reach.revive c.event w) else (.noEffect, w)

/-- Lets an occurrence in: notes it, opens a dispatch and counts it. -/
def openDispatch (w : World) : World :=
  (w.note (.dispatched w.depth w.inFlight true)).enter.count fun n =>
    { n with dispatches := n.dispatches + 1 }

/-- Refuses an occurrence: notes and counts it. -/
def refuseDispatch (w : World) : World :=
  (w.note (.dispatched w.depth w.inFlight false)).count fun n =>
    { n with depthLimitHits := n.depthLimitHits + 1 }

/-- Answers an occurrence. -/
def dispatch (e : Engine) (wiring : Wiring) (reach : Reach) (triggerType : String)
    (payload : Payload) (w : World) : Report × World :=
  if e.config.dispatch.maxDepth ≤ w.depth then (⟨triggerType, true, []⟩, refuseDispatch w)
  else
    let w := openDispatch w
    let (rulings, w) :=
      sweep (e.rule wiring reach w.game.state payload) false (e.catalog.candidates triggerType) w
    (⟨triggerType, false, rulings⟩, w.leave)

/-- The trigger type that player actions are raised as. -/
def raisedType : String := "player_action"

/-- The ways out of action lists that leave room for a number of nested calls. -/
def reach (e : Engine) (wiring : Wiring) : (clock : Nat) → Reach
  | 0 => {
      raise := fun _ w => (false, w.note .stalled)
      revive := fun _ w => w.note .stalled }
  | clock + 1 => {
      raise := fun payload w =>
        let (report, w) := e.dispatch wiring (reach e wiring clock) raisedType payload w
        (report.anyFired, w)
      revive := fun token w => w.resume (e.follow wiring (reach e wiring clock)) token }

/-- The number of calls that are nested in one another at most: dispatches up to the one that
is refused, and resumptions as far as the receiver nests them. -/
def clock (e : Engine) (wiring : Wiring) : Nat :=
  e.config.dispatch.maxDepth.toNat + wiring.receiver.nesting + 1

/-- The ways out of action lists that no event executes. -/
def outlets (e : Engine) (wiring : Wiring) : Reach := e.reach wiring (e.clock wiring)

/-- Answers an occurrence that the host reports. -/
def handle (e : Engine) (wiring : Wiring) (triggerType : String) (payload : Payload) (w : World) :
    Report × World :=
  e.dispatch wiring (e.outlets wiring) triggerType payload w

/-- Runs actions against a given snapshot; says whether any took effect. -/
def execute (e : Engine) (wiring : Wiring) (actions : List Action) (s : SessionState)
    (w : World) : Bool × World :=
  Action.runAll e wiring (e.outlets wiring) actions s w

/-- Runs actions against the current state; says whether any took effect. -/
def perform (e : Engine) (wiring : Wiring) (actions : List Action) (w : World) : Bool × World :=
  e.execute wiring actions w.game.state w

end Engine

end Narrative
