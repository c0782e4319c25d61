import Narrative.Proofs.Recasting
import Narrative.Proofs.Hearing
import Narrative.Proofs.Wording

set_option autoImplicit false

/-!
# The case of loose ids

People, action tags and items are compared up to the case of the ASCII letters when an occurrence is
matched, and the trigger type is looked up by its key. So all of them have a normal form, in small
letters, and an occurrence in normal form is answered as the occurrence itself is
(`Engine.dispatch_folded`).

The loose ids of a catalog have a normal form too: those of its triggers, and those of the player
actions that it raises, at any depth. Compiling an authored event in normal form gives the compiled
event in normal form (`Event.ofAuthored_folded`). A catalog in normal form is a recast one
(`Folded.recasts`), so no host can tell it from the original, and it does not matter how the host
spells what it reports (`Folded.move`). Two runs that have the same normal form are therefore the same
(`case_of_loose_ids_is_ignored`).
-/

namespace Narrative

open Text (foldCase firstPresent sameId)

/-! ## Occurrences in small letters -/

/-- A payload with its loose ids in small letters. -/
def Payload.folded : Payload → Payload
  | .talkedTo npc => .talkedTo (foldCase npc)
  | .playerAction action item => .playerAction (foldCase action) (item.map foldCase)
  | .itemAcquired item quantity => .itemAcquired (foldCase item) quantity
  | p => p

/-- An occurrence with its loose ids in small letters. -/
def Occurrence.folded : Occurrence → Occurrence
  | .talkedTo npc => .talkedTo (foldCase npc)
  | .dialogueClosed npc => .dialogueClosed (foldCase npc)
  | .playerAction action item => .playerAction (foldCase action) (item.map foldCase)
  | .itemAcquired item quantity => .itemAcquired (foldCase item) quantity
  | o => o

theorem Occurrence.triggerType_folded (o : Occurrence) : o.folded.triggerType = o.triggerType := by
  cases o <;> rfl

theorem Occurrence.payload_folded (o : Occurrence) : o.folded.payload = o.payload.folded := by
  cases o <;> rfl

theorem Occurrence.prepare_folded (o : Occurrence) : o.folded.prepare = o.prepare := by
  cases o <;> rfl

/-- **No trigger tells a payload from its normal form.** -/
theorem Payload.indistinct_folded (s : SessionState) (p : Payload) : p.Indistinct s p.folded := by
  intro policy t
  unfold Trigger.isMatch
  cases p with
  | talkedTo npc =>
      cases t.kind with
      | npc => simp only [folded, Text.sameId_foldCase_right]
      | _ => rfl
  | playerAction action item =>
      cases t.kind with
      | playerAction =>
          cases item with
          | none => simp only [folded, Option.map_none, Text.sameId_foldCase_right]
          | some held => simp only [folded, Option.map_some, Text.sameId_foldCase_right]
      | _ => rfl
  | itemAcquired item quantity =>
      cases t.kind with
      | itemAcquired => simp only [folded, Text.sameId_foldCase_right]
      | _ => rfl
  | _ => rfl

/-- An occurrence in small letters is answered alike, up to the echo of its type. -/
theorem Engine.dispatch_folded (e : Engine) (wiring : Wiring) (reach : Reach) (t : String)
    (p : Payload) (w : World) :
    e.dispatch wiring reach (Text.typeKey t) p.folded w =
      ((e.dispatch wiring reach t p w).1.retyped (Text.typeKey t),
        (e.dispatch wiring reach t p w).2) := by
  rw [dispatch_congr (Payload.indistinct_folded w.game.state p),
    dispatch_retyped (Text.typeKey_typeKey t)]

/-- So is a player action that is raised. -/
theorem Engine.raise_folded (e : Engine) (wiring : Wiring) (k : Nat) (p : Payload) (w : World) :
    (e.reach wiring k).raise p.folded w = (e.reach wiring k).raise p w := by
  cases k with
  | zero => rfl
  | succ k =>
      have hdispatch : e.dispatch wiring (e.reach wiring k) raisedType p.folded w =
          e.dispatch wiring (e.reach wiring k) raisedType p w :=
        dispatch_congr (Payload.indistinct_folded w.game.state p) raisedType
      simp only [reach, hdispatch]

/-! ## Catalogs in small letters -/

namespace Authored

/-- A trigger with its loose ids in small letters. -/
def Trigger.folded (t : Trigger) : Trigger :=
  { t with
    npc := t.npc.map foldCase
    action := t.action.map foldCase
    itemId := t.itemId.map foldCase
    item := t.item.map foldCase }

/-- The fields of an action, with the tag and the item of a player action in small letters. The items
of other actions are exact. -/
def ActionFields.folded (a : ActionFields) : ActionFields :=
  if Text.typeKey a.type = Engine.raisedType then
    { a with
      action := a.action.map foldCase
      itemId := a.itemId.map foldCase
      item := a.item.map foldCase }
  else a

mutual

/-- An action with the player actions in it in small letters. -/
def Action.folded : Action → Action
  | .mk fields thenDo elseDo onComplete =>
      .mk fields.folded (foldedAll thenDo) (foldedAll elseDo) (foldedAll onComplete)

/-- A list of actions with the player actions in them in small letters. -/
def Action.foldedAll : List Action → List Action
  | [] => []
  | a :: rest => a.folded :: foldedAll rest

end

/-- An event with its loose ids in small letters. -/
def Event.folded (e : Event) : Event :=
  { e with trigger := e.trigger.folded, actions := Action.foldedAll e.actions }

end Authored

/-- A compiled trigger with its loose ids in small letters. -/
def Trigger.folded (t : Trigger) : Trigger :=
  { t with
    npc := t.npc.map foldCase
    action := t.action.map foldCase
    item := t.item.map foldCase }

namespace Action

mutual

/-- A compiled action with the player actions in it in small letters. -/
def folded : Action → Action
  | .deed d => .deed d
  | .branch test thenDo elseDo => .branch test (foldedAll thenDo) (foldedAll elseDo)
  | .playCinematic scene onComplete => .playCinematic scene (foldedAll onComplete)
  | .systemTutorial scene context onComplete =>
      .systemTutorial scene context (foldedAll onComplete)
  | .playerAction action item => .playerAction (action.map foldCase) (item.map foldCase)
  | .unknown type => .unknown type

/-- A list of compiled actions with the player actions in them in small letters. -/
def foldedAll : List Action → List Action
  | [] => []
  | a :: rest => a.folded :: foldedAll rest

end

end Action

/-- A compiled event with its loose ids in small letters. -/
def Event.folded (event : Event) : Event :=
  { event with trigger := event.trigger.folded, actions := Action.foldedAll event.actions }

/-- A catalog with its loose ids in small letters. -/
def Catalog.folded (c : Catalog) : Catalog := c.mapEvents Event.folded

/-! ## Compiling keeps to the normal form -/

theorem Trigger.ofAuthored_folded (t : Authored.Trigger) :
    ofAuthored t.folded = (ofAuthored t).folded := by
  have halone (field : Option String) :
      firstPresent (field.map foldCase) none = (firstPresent field none).map foldCase :=
    Text.firstPresent_foldCase field none
  simp only [ofAuthored, folded, Authored.Trigger.folded, halone, Text.firstPresent_foldCase]

namespace Action

theorem ofAuthored_raised {a : Authored.ActionFields}
    (hkey : Text.typeKey a.type = Engine.raisedType)
    (thenDo elseDo onComplete : List Authored.Action) :
    ofAuthored (.mk a thenDo elseDo onComplete) =
      .playerAction (firstPresent a.action none) (firstPresent a.itemId a.item) := by
  unfold ofAuthored
  rw [hkey]
  rfl

/-- An action that raises nothing itself is in normal form if the actions in it are. -/
theorem ofAuthored_folded_of_ne {a : Authored.ActionFields}
    (hkey : Text.typeKey a.type ≠ Engine.raisedType)
    {thenDo elseDo onComplete thenDo' elseDo' onComplete' : List Authored.Action}
    (hthen : ofAuthoredList thenDo' = foldedAll (ofAuthoredList thenDo))
    (helse : ofAuthoredList elseDo' = foldedAll (ofAuthoredList elseDo))
    (hcomplete : ofAuthoredList onComplete' = foldedAll (ofAuthoredList onComplete)) :
    ofAuthored (.mk a thenDo' elseDo' onComplete') =
      (ofAuthored (.mk a thenDo elseDo onComplete)).folded := by
  unfold ofAuthored
  dsimp only
  rw [hthen, helse, hcomplete]
  generalize Text.typeKey a.type = key at hkey ⊢
  cases Deed.known? key a with
  | some d => rw [folded]
  | none =>
      dsimp only
      split
      · rw [folded]
      · rw [folded]
      · rw [folded]
      · exact absurd rfl hkey
      · cases test? key a with
        | some test => dsimp only; rw [folded]
        | none => dsimp only; rw [folded]

mutual

theorem ofAuthored_folded : ∀ a : Authored.Action, ofAuthored a.folded = (ofAuthored a).folded
  | .mk fields thenDo elseDo onComplete => by
      rw [Authored.Action.folded]
      by_cases hkey : Text.typeKey fields.type = Engine.raisedType
      · have hfields : fields.folded =
            { fields with
              action := fields.action.map foldCase
              itemId := fields.itemId.map foldCase
              item := fields.item.map foldCase } := if_pos hkey
        have haction : firstPresent (fields.action.map foldCase) none =
            (firstPresent fields.action none).map foldCase :=
          Text.firstPresent_foldCase fields.action none
        have hkey' : Text.typeKey fields.folded.type = Engine.raisedType := by
          rw [hfields]
          exact hkey
        rw [ofAuthored_raised hkey, ofAuthored_raised hkey', hfields, folded, haction,
          Text.firstPresent_foldCase]
      · have hfields : fields.folded = fields := if_neg hkey
        rw [hfields]
        exact ofAuthored_folded_of_ne hkey (ofAuthoredList_folded thenDo)
          (ofAuthoredList_folded elseDo) (ofAuthoredList_folded onComplete)

theorem ofAuthoredList_folded : ∀ actions : List Authored.Action,
    ofAuthoredList (Authored.Action.foldedAll actions) = foldedAll (ofAuthoredList actions)
  | [] => rfl
  | a :: rest => by
      rw [Authored.Action.foldedAll, ofAuthoredList, ofAuthoredList, foldedAll,
        ofAuthored_folded a, ofAuthoredList_folded rest]

end

end Action

/-- **Compiling keeps to the normal form** of an event. -/
theorem Event.ofAuthored_folded (e : Authored.Event) :
    ofAuthored e.folded = (ofAuthored e).folded := by
  simp only [ofAuthored, folded, Authored.Event.folded, Trigger.ofAuthored_folded,
    Action.ofAuthoredList_folded]

/-- The catalog of the events in normal form is the catalog in normal form. -/
theorem Catalog.ofAuthored_folded (events : List Authored.Event) :
    ofAuthored (events.map Authored.Event.folded) = (ofAuthored events).map Catalog.folded := by
  have hcompiled : (events.map Authored.Event.folded).map Event.ofAuthored =
      (events.map Event.ofAuthored).map Event.folded := by
    rw [List.map_map, List.map_map]
    exact List.map_congr_left fun e _ => Event.ofAuthored_folded e
  rw [ofAuthored, ofAuthored, hcompiled]
  exact ofEvents_map (f := Event.folded) (fun _ => rfl) (fun _ => rfl) _

/-! ## Triggers in small letters -/

theorem Trigger.passes_map (want : Option String) (f : String → String) (test : String → Bool) :
    passes (want.map f) test = passes want fun w => test (f w) := by
  cases want <;> rfl

/-- **A trigger in small letters matches alike.** -/
theorem Trigger.isMatch_folded (policy : UnknownPolicy) (t : Trigger) (p : Payload)
    (s : SessionState) : t.folded.isMatch policy p s = t.isMatch policy p s := by
  have hkind : t.folded.kind = t.kind := rfl
  unfold isMatch
  rw [hkind]
  cases t.kind with
  | npc =>
      cases p with
      | talkedTo npc =>
          cases hnpc : t.npc with
          | none => simp only [folded, hnpc, Option.map_none]
          | some want => simp only [folded, hnpc, Option.map_some, Text.sameId_foldCase_left]
      | _ => rfl
  | playerAction =>
      cases p with
      | playerAction action item =>
          cases item with
          | none => simp only [folded, passes_map, Text.sameId_foldCase_left]
          | some held => simp only [folded, passes_map, Text.sameId_foldCase_left]
      | _ => rfl
  | itemAcquired =>
      cases p with
      | itemAcquired item quantity => simp only [folded, passes_map, Text.sameId_foldCase_left]
      | _ => rfl
  -- the others do not look at a loose id
  | encounter outcome => cases outcome <;> cases p <;> rfl
  | _ => cases p <;> rfl

/-! ## Small letters twice -/

theorem foldCase_map_map (field : Option String) :
    (field.map foldCase).map foldCase = field.map foldCase := by
  cases field with
  | none => rfl
  | some s => rw [Option.map_some, Option.map_some, Text.foldCase_foldCase]

theorem Trigger.folded_folded (t : Trigger) : t.folded.folded = t.folded := by
  simp only [folded, foldCase_map_map]

namespace Action

mutual

theorem folded_folded : ∀ a : Action, a.folded.folded = a.folded
  | .deed _ => by simp only [folded]
  | .branch _ thenDo elseDo => by
      simp only [folded, foldedAll_foldedAll thenDo, foldedAll_foldedAll elseDo]
  | .playCinematic _ onComplete => by simp only [folded, foldedAll_foldedAll onComplete]
  | .systemTutorial _ _ onComplete => by simp only [folded, foldedAll_foldedAll onComplete]
  | .playerAction _ _ => by simp only [folded, foldCase_map_map]
  | .unknown _ => by simp only [folded]

theorem foldedAll_foldedAll : ∀ actions : List Action,
    foldedAll (foldedAll actions) = foldedAll actions
  | [] => rfl
  | a :: rest => by simp only [foldedAll, folded_folded a, foldedAll_foldedAll rest]

end

end Action

theorem Event.folded_folded (event : Event) : event.folded.folded = event.folded := by
  simp only [folded, Trigger.folded_folded, Action.foldedAll_foldedAll]

/-! ## Runs in small letters -/

/-- What happens, with the loose ids of the events in small letters. -/
def Happening.folded : Happening → Happening
  | .began c => .began (c.mapEvent Event.folded)
  | x => x

/-- A moment with the loose ids of the events in small letters. -/
def Moment.folded (m : Moment) : Moment := { m with happening := m.happening.folded }

/-- Behind the scenes of a run in small letters the player actions that are still to come are in
small letters, and the trace names events in small letters. -/
def folding : Staging where
  rewrite := Action.foldedAll
  counters := Eq
  trace ms ms' := ms'.map Moment.folded = ms.map Moment.folded
  counters_refl _ := rfl
  trace_refl _ := rfl
  counted more := by
    rintro n _ rfl
    rfl
  noted m ms ms' h := by rw [List.map_cons, List.map_cons, h]

/-- A move with its loose ids and its trigger type in small letters. -/
def Move.folded : Move → Move
  | .trigger type payload => .trigger (Text.typeKey type) payload.folded
  | .occur o => .occur o.folded
  | .perform actions => .perform (Action.foldedAll actions)
  | .execute actions state => .execute (Action.foldedAll actions) state
  | .restart catalog config => .restart catalog.folded config
  | m => m

/-- A step of the host with its loose ids and its trigger type in small letters. -/
def HostStep.folded : HostStep → HostStep
  | .move m => .move m.folded
  | .drain => .drain

/-- A rewiring is the normal form of itself and of nothing else. -/
theorem HostStep.eq_rewire_of_folded {step : HostStep} {wiring : Wiring}
    (h : step.folded = .move (.rewire wiring)) : step = .move (.rewire wiring) := by
  cases step with
  | drain => cases h
  | move m =>
      cases m with
      | rewire => exact h
      | _ => cases h

/-- An answer with the trigger type of a report left out. -/
def Answer.unechoed : Answer → Answer
  | .report r => .report (r.retyped "")
  | a => a

theorem Answer.map_unechoed {as as' : List Answer}
    (h : List.Forall₂ (fun a a' => a'.unechoed = a.unechoed) as as') :
    as'.map unechoed = as.map unechoed := by
  induction h with
  | nil => rfl
  | cons hhead _ ih => rw [List.map_cons, List.map_cons, hhead, ih]

namespace Folded

variable {e e' : Engine} {wiring : Wiring} {reach reach' : Reach}

/-- To raise a player action in small letters comes to the same. -/
def RaisesFolded (reach : Reach) : Prop := ∀ p w, reach.raise (Payload.folded p) w = reach.raise p w

mutual

/-- An action in small letters does the same. -/
theorem run (acting : folding.Acting e e' wiring reach reach') (hraise : RaisesFolded reach')
    (a : Action) (s : SessionState) {u v : World} (h : Restaged folding u v) :
    Matches (Restaged folding) (Action.run e wiring reach a s u)
      (Action.run e' wiring reach' a.folded s v) := by
  cases a with
  | unknown type =>
      rw [Action.folded]
      exact Staging.Acting.run_unknown type s h
  | deed d =>
      rw [Action.folded]
      exact acting.run_deed d s h
  | branch test thenDo elseDo =>
      rw [Action.folded]
      exact acting.run_branch test (runAll acting hraise thenDo) (runAll acting hraise elseDo) s h
  | playCinematic scene onComplete =>
      rw [Action.folded]
      exact acting.run_playCinematic scene (runAll acting hraise onComplete) s h
  | systemTutorial scene context onComplete =>
      rw [Action.folded]
      exact acting.run_systemTutorial scene context (runAll acting hraise onComplete) s h
  | playerAction action item =>
      have hsame : Action.run e' wiring reach' (.playerAction (action.map foldCase)
          (item.map foldCase)) s v = Action.run e' wiring reach' (.playerAction action item) s v := by
        cases action with
        | none => rw [Option.map_none, Action.run, Action.run]
        | some action =>
            rw [Option.map_some, Action.run, Action.run]
            exact hraise (.playerAction action item) v.started
      rw [Action.folded, hsame]
      exact acting.run_playerAction action item s h

/-- So does a list of actions. -/
theorem runAll (acting : folding.Acting e e' wiring reach reach') (hraise : RaisesFolded reach')
    (actions : List Action) :
    folding.SameRun e e' wiring reach reach' actions (Action.foldedAll actions) := by
  intro s u v h
  cases actions with
  | nil =>
      rw [Action.foldedAll, Action.runAll, Action.runAll]
      exact ⟨rfl, h⟩
  | cons a rest =>
      have hfirst := run acting hraise a s h
      have hrest := runAll acting hraise rest s hfirst.world
      rw [Action.foldedAll, Action.runAll, Action.runAll]
      refine ⟨?_, hrest.world⟩
      simp only [hfirst.answer, hrest.answer]

end

/-- A catalog is recast when its loose ids are put in small letters. -/
theorem recasts : folding.Recasts Event.folded where
  id _ := rfl
  repeatable _ := rfl
  conditions _ := rfl
  kind _ := rfl
  isMatch policy event := event.trigger.isMatch_folded policy
  actions _ := rfl
  began c g depth ms ms' h := by
    -- the two moments differ in the event that they name
    have hbegan : Moment.folded ⟨.began (c.mapEvent Event.folded), g, depth⟩ =
        Moment.folded ⟨.began c, g, depth⟩ := by
      simp only [Moment.folded, Happening.folded, Candidate.mapEvent, Event.folded_folded]
    show (⟨.began (c.mapEvent Event.folded), g, depth⟩ :: ms').map Moment.folded =
      (⟨.began c, g, depth⟩ :: ms).map Moment.folded
    rw [List.map_cons, List.map_cons, hbegan]
    exact congrArg _ h

/-- The pairing of runs with runs in small letters. -/
def pairing : Pairing := folding.pairing fun c c' => c' = c.folded

theorem fair : pairing.Fair Eq :=
  Staging.fair_recast recasts fun {_ e' wiring k} acting =>
    runAll acting (e'.raise_folded wiring k)

/-- A trigger in small letters comes to the same. Only the report echoes the type. -/
theorem move_trigger (p : Play) (type : String) (payload : Payload) :
    (p.move (.trigger (Text.typeKey type) payload.folded)).1.unechoed =
        (p.move (.trigger type payload)).1.unechoed ∧
      (p.move (.trigger (Text.typeKey type) payload.folded)).2 =
        (p.move (.trigger type payload)).2 := by
  have hhandle (e : Engine) : e.handle p.wiring (Text.typeKey type) payload.folded p.world =
      ((e.handle p.wiring type payload p.world).1.retyped (Text.typeKey type),
        (e.handle p.wiring type payload p.world).2) := e.dispatch_folded _ _ _ _ _
  unfold Play.move Play.withEngine
  cases p.engine with
  | none => exact ⟨rfl, rfl⟩
  | some e =>
      simp only [hhandle, Answer.unechoed, Report.retyped]
      exact ⟨trivial, trivial⟩

/-- An occurrence in small letters comes to the same. -/
theorem move_occur (p : Play) (o : Occurrence) : p.move (.occur o.folded) = p.move (.occur o) := by
  have hreport (e : Engine) : e.report p.wiring o.folded = e.report p.wiring o := by
    funext w
    have hindistinct := Payload.indistinct_folded (o.prepare w).game.state o.payload
    rw [Engine.report, Engine.report, Engine.handle, Engine.handle, Occurrence.triggerType_folded,
      Occurrence.payload_folded, Occurrence.prepare_folded, Engine.dispatch_congr hindistinct]
  unfold Play.move
  simp only [hreport]

/-- **A move in small letters** of a play with the catalog in small letters is answered alike. -/
theorem move {p q : Play} (h : p.Paired pairing q) (m : Move)
    (hwired : ∀ wiring, m = .rewire wiring → wiring.receiver.IgnoresStaging folding) :
    (q.move m.folded).1.unechoed = (p.move m).1.unechoed ∧
      (p.move m).2.Paired pairing (q.move m.folded).2 := by
  -- first the host spells alike in both plays, and what it runs and starts is in small letters
  have hmove {m' : Move} (hm : m.Paired pairing m') :
      (q.move m').1.unechoed = (p.move m).1.unechoed ∧
        (p.move m).2.Paired pairing (q.move m').2 := by
    obtain ⟨hanswer, hplay⟩ := h.move fair hm
    rw [hanswer.eq]
    exact ⟨rfl, hplay⟩
  have hfolded (actions : List Action) : pairing.fits actions (Action.foldedAll actions) := rfl
  cases m with
  | trigger type payload =>
      obtain ⟨hanswer, hplay⟩ := hmove (.fits (.trigger trivial payload))
      obtain ⟨hspelled, hsame⟩ := move_trigger q type payload
      rw [Move.folded, hspelled, hsame]
      exact ⟨hanswer, hplay⟩
  | occur o =>
      rw [Move.folded, move_occur]
      exact hmove (.fits (.occur trivial))
  | perform actions => exact hmove (.fits (.perform (hfolded actions)))
  | execute actions s => exact hmove (.fits (.execute (hfolded actions) s))
  | rewire wiring => exact hmove (.rewire (hwired wiring rfl))
  | restart catalog config => exact hmove (.restart fun _ => ⟨rfl, rfl, rfl⟩)
  | _ => exact hmove (.fits (by constructor))

/-- **A run in small letters** over the catalog in small letters is answered alike. -/
theorem proceed {p q : Play} (h : p.Paired pairing q) {steps : List HostStep}
    (hwired : ∀ wiring, .move (.rewire wiring) ∈ steps → wiring.receiver.IgnoresStaging folding) :
    (q.proceed (steps.map HostStep.folded)).answers.map Answer.unechoed =
        (p.proceed steps).answers.map Answer.unechoed ∧
      (q.proceed (steps.map HostStep.folded)).taken = (p.proceed steps).taken ∧
      (p.proceed steps).play.Paired pairing (q.proceed (steps.map HostStep.folded)).play := by
  let M (m m' : Move) : Prop := m' = m.folded ∧
    ∀ wiring, m = .rewire wiring → wiring.receiver.IgnoresStaging folding
  have hsteps : List.Forall₂ (HostStep.Fits M) steps (steps.map HostStep.folded) := by
    refine List.forall₂_map_right_iff.2 (List.forall₂_same.2 fun step hstep => ?_)
    cases step with
    | drain => exact .drain
    | move m => exact .move ⟨rfl, fun wiring hm => hwired wiring (hm ▸ hstep)⟩
  have hmove {p q : Play} {m m' : Move} (h : p.Paired pairing q) (hm : M m m') :
      (q.move m').1.unechoed = (p.move m).1.unechoed ∧
        (p.move m).2.Paired pairing (q.move m').2 := by
    obtain ⟨rfl, hrewired⟩ := hm
    exact move h m hrewired
  obtain ⟨hanswers, hrest⟩ := Play.proceed_agree (A := fun a a' => a'.unechoed = a.unechoed)
    hmove (fun h => h.drain fair) hsteps h
  exact ⟨Answer.map_unechoed hanswers, hrest⟩

/-- Two worlds with the same normal form are the same but for the player actions that are still to
come and the events that the trace names, and these have the same normal form. -/
theorem joined {u u' v : World} (h : Restaged folding u v) (h' : Restaged folding u' v) :
    ∃ (tokens : List SceneToken) (trace : List Moment), u' = { u with tokens, trace } ∧
      tokens.map (·.rewrite Action.foldedAll) = u.tokens.map (·.rewrite Action.foldedAll) ∧
      trace.map Moment.folded = u.trace.map Moment.folded := by
  obtain ⟨_, trace, rfl, hnote, rfl⟩ := h
  obtain ⟨_, trace', rfl, hnote', heq⟩ := h'
  refine ⟨u'.tokens, u'.trace, ?_, (congrArg World.tokens heq).symm, ?_⟩
  · obtain ⟨⟩ := u
    obtain ⟨⟩ := u'
    simp only [World.restage, World.mk.injEq] at heq ⊢
    tauto
  · have htrace : trace = trace' := congrArg World.trace heq
    rw [← hnote', ← htrace]
    exact hnote

end Folded

/-- **The case of loose ids is ignored.** Respell the people, the action tags and the items that the
triggers of a catalog wait for and that its player actions raise, at any depth; and respell those that
the host reports, raises or starts another catalog with, and the trigger types that it submits, with
blanks around them if need be. As long as nothing but the case of ASCII letters is changed, and the
blanks around a submitted type, no host can tell: the catalog is accepted as well, and whatever the
host does it gets the same answers, up to the echo of the type in a report, and the same journal. The
two runs come to the same world, with the same game, queue and counters. Only the player actions that
are still to follow a scene, and the events that the trace names, are spelled as they are in the
catalog. This holds of every receiver that does not look behind the scenes, and so of every session.
-/
theorem case_of_loose_ids_is_ignored {events events' : List Authored.Event} {c : Catalog}
    {wiring : Wiring} {steps steps' : List HostStep} (hc : Catalog.ofAuthored events = .ok c)
    (hevents : events'.map Authored.Event.folded = events.map Authored.Event.folded)
    (hreceiver : wiring.receiver.IgnoresStaging folding)
    (hwired : ∀ wiring, .move (.rewire wiring) ∈ steps → wiring.receiver.IgnoresStaging folding)
    (hsteps : steps'.map HostStep.folded = steps.map HostStep.folded)
    (config : EngineConfig) (state : SessionState) :
    ∃ c', Catalog.ofAuthored events' = .ok c' ∧
      let r := (Play.start c config wiring state).proceed steps
      let r' := (Play.start c' config wiring state).proceed steps'
      r'.answers.map Answer.unechoed = r.answers.map Answer.unechoed ∧ r'.taken = r.taken ∧
      ∃ (tokens : List SceneToken) (trace : List Moment),
        r'.play.world = { r.play.world with tokens, trace } ∧
        tokens.map (·.rewrite Action.foldedAll) =
          r.play.world.tokens.map (·.rewrite Action.foldedAll) ∧
        trace.map Moment.folded = r.play.world.trace.map Moment.folded := by
  -- both catalogs have the same normal form
  have hfolded : (Catalog.ofAuthored events').map Catalog.folded = .ok c.folded := by
    rw [← Catalog.ofAuthored_folded, hevents, Catalog.ofAuthored_folded, hc]
    rfl
  obtain ⟨c', hc', hcatalog⟩ : ∃ c', Catalog.ofAuthored events' = .ok c' ∧
      c'.folded = c.folded := by
    cases hbuilt : Catalog.ofAuthored events' with
    | error err => rw [hbuilt] at hfolded; cases hfolded
    | ok c' =>
        rw [hbuilt] at hfolded
        exact ⟨c', rfl, Except.ok.inj hfolded⟩
  have hwired' : ∀ wiring, .move (.rewire wiring) ∈ steps' →
      wiring.receiver.IgnoresStaging folding := by
    intro wiring hmem
    have hmem' : HostStep.move (.rewire wiring) ∈ steps.map HostStep.folded :=
      hsteps ▸ List.mem_map_of_mem (f := HostStep.folded) hmem
    obtain ⟨step, hstep, heq⟩ := List.mem_map.1 hmem'
    exact hwired wiring (HostStep.eq_rewire_of_folded heq ▸ hstep)
  -- so both runs are compared with the run in small letters
  have hstart := folding.start (C := fun c c' => c' = c.folded) (c := c) rfl config hreceiver state
  have hstart' := folding.start (C := fun c c' => c' = c.folded) (c := c') rfl config hreceiver
    state
  rw [hcatalog] at hstart'
  obtain ⟨hanswers, htaken, hlast⟩ := Folded.proceed hstart hwired
  obtain ⟨hanswers', htaken', hlast'⟩ := Folded.proceed hstart' hwired'
  rw [hsteps] at hanswers' htaken' hlast'
  exact ⟨c', hc', hanswers'.symm.trans hanswers, htaken'.symm.trans htaken,
    Folded.joined hlast.world hlast'.world⟩

/-- Somebody is welcomed and waves a lamp back. -/
def welcome (npc tag item : String) : Authored.Event where
  id := "welcome"
  trigger := { type := "talk_to", npc := some npc }
  actions := [.mk { type := "play_cinematic", sceneId := some "smile" } [] []
    [.mk { type := "player_action", action := some tag, item := some item } [] [] []]]

theorem folded_welcome (npc tag item : String) :
    (welcome npc tag item).folded = welcome (foldCase npc) (foldCase tag) (foldCase item) := by
  have hscene : Text.typeKey "play_cinematic" ≠ Engine.raisedType := by decide +kernel
  have hraised : Text.typeKey "player_action" = Engine.raisedType := by decide +kernel
  simp only [welcome, Authored.Event.folded, Authored.Trigger.folded, Authored.Action.foldedAll,
    Authored.Action.folded, Authored.ActionFields.folded, if_neg hscene, if_pos hraised,
    Option.map_none, Option.map_some]

/-- Whoever waves the lamp is rewarded. -/
def lampWaved : Authored.Event where
  id := "lamp_waved"
  trigger := { type := "player_action", action := some "wave", itemId := some "lamp" }
  actions := [.mk { type := "give_xp", xp := some 5 } [] [] []]

/-- Somebody is talked to and is watched to the end. -/
def welcomed (type npc : String) : List HostStep :=
  [.move (.trigger type (.talkedTo npc)), .move .finishScene, .drain]

/-- However the welcome is written and however it is reported, the lamp is waved. -/
theorem welcome_in_capitals :
    ∃ c c', Catalog.ofAuthored [welcome "mara" "wave" "lamp", lampWaved] = .ok c ∧
      Catalog.ofAuthored [welcome "Mara" "Wave" "LAMP", lampWaved] = .ok c' ∧
      let r := (Play.start c {} ⟨.session .park, true⟩ {}).proceed (welcomed "talk_to" "mara")
      let r' := (Play.start c' {} ⟨.session .park, true⟩ {}).proceed (welcomed " Talk_To\t" "mARA")
      r.play.world.game.progress.xp = 5 ∧ r'.play.world.game.progress.xp = 5 ∧
        r'.taken = r.taken := by
  obtain ⟨c, hc, hxp⟩ : ∃ c, Catalog.ofAuthored [welcome "mara" "wave" "lamp", lampWaved] = .ok c ∧
      ((Play.start c {} ⟨.session .park, true⟩ {}).proceed
        (welcomed "talk_to" "mara")).play.world.game.progress.xp = 5 := ⟨_, rfl, by decide +kernel⟩
  have hevents : [welcome "Mara" "Wave" "LAMP", lampWaved].map Authored.Event.folded =
      [welcome "mara" "wave" "lamp", lampWaved].map Authored.Event.folded := by
    have hids : foldCase "Mara" = foldCase "mara" ∧ foldCase "Wave" = foldCase "wave" ∧
        foldCase "LAMP" = foldCase "lamp" := by decide +kernel
    simp only [List.map_cons, folded_welcome, hids]
  have hsteps : (welcomed " Talk_To\t" "mARA").map HostStep.folded =
      (welcomed "talk_to" "mara").map HostStep.folded := by
    have hspelled : Text.typeKey " Talk_To\t" = Text.typeKey "talk_to" ∧
        foldCase "mARA" = foldCase "mara" := by decide +kernel
    simp only [welcomed, List.map_cons, HostStep.folded, Move.folded, Payload.folded, hspelled]
  obtain ⟨c', hc', -, htaken, tokens, trace, hworld, -⟩ :=
    @case_of_loose_ids_is_ignored _ _ c ⟨.session .park, true⟩ _ _ hc hevents
      (Receiver.ignoresStaging_session folding .park) (by simp [welcomed]) hsteps {} {}
  refine ⟨c, c', hc, hc', hxp, ?_, htaken⟩
  rw [hworld]
  exact hxp

end Narrative
