import Narrative.Proofs.Abreast
import Narrative.Proofs.Conduct

set_option autoImplicit false

/-!
# Policies for unknown types

The audit of a catalog looks for types outside the vocabulary. It walks the trigger, the conditions
and the actions of an event, and it never looks at what a branch tests. It need not: the compiler
builds a branch only where it knows the test, at any depth (`Action.isKnown_of_mem_tests`). So over
a catalog that passed the audit no policy for unknown types is ever asked, and engines whose
policies differ are twins (`SameSober.twins`). That is the first half of `audit_is_complete`.

The second half is about catalogs that did not pass. Under a policy that denies what is unknown,
an event whose trigger or one of whose conditions is unknown is never eligible, and so it is never
begun, in no dispatch of no run (`conduct_isClear`).
-/

namespace Narrative

/-! ## Known types -/

/-- A condition of a type that is known. -/
def Condition.IsKnown (c : Condition) : Prop := ∀ type, c ≠ .unknown type

namespace Condition

/-- A known condition is true or false, whatever the policy. -/
theorem IsKnown.exists_evaluate {c : Condition} (h : c.IsKnown) (s : SessionState) :
    ∃ b, c.evaluate s = some b := by
  cases c with
  | unknown type => exact absurd rfl (h type)
  | _ => exact ⟨_, rfl⟩

theorem IsKnown.holds_eq {c : Condition} (h : c.IsKnown) (policy policy' : UnknownPolicy)
    (s : SessionState) : c.holds policy' s = c.holds policy s := by
  obtain ⟨b, hb⟩ := h.exists_evaluate s
  rw [holds, holds, hb, Option.getD_some, Option.getD_some]

theorem allHold_eq {cs : List Condition} (h : ∀ c ∈ cs, c.IsKnown)
    (policy policy' : UnknownPolicy) (s : SessionState) :
    allHold policy' s cs = allHold policy s cs := by
  induction cs with
  | nil => rfl
  | cons c rest ih =>
      rw [List.forall_mem_cons] at h
      have hrest : rest.all (holds policy' s) = rest.all (holds policy s) := ih h.2
      rw [allHold, allHold, List.all_cons, List.all_cons, h.1.holds_eq policy policy', hrest]

theorem unknownsMet_eq_zero {cs : List Condition} (h : ∀ c ∈ cs, c.IsKnown)
    (policy : UnknownPolicy) (s : SessionState) : unknownsMet policy s cs = 0 := by
  induction cs with
  | nil => rfl
  | cons c rest ih =>
      rw [List.forall_mem_cons] at h
      obtain ⟨b, hb⟩ := h.1.exists_evaluate s
      simp [unknownsMet, hb, ih h.2]

/-- The vocabulary knows no unknown condition. -/
theorem isKnown_of_known? {key : String} {a : Authored.Condition} {c : Condition}
    (h : known? key a = some c) : c.IsKnown := by
  intro type hc
  subst hc
  unfold known? at h
  split at h <;> simp at h

end Condition

/-- A trigger of a known type matches or not, whatever the policy. -/
theorem Trigger.isMatch_eq {t : Trigger} (h : t.kind.isUnknown = false)
    (policy policy' : UnknownPolicy) (p : Payload) (s : SessionState) :
    t.isMatch policy' p s = t.isMatch policy p s := by
  unfold isMatch
  split <;> simp_all [TriggerKind.isUnknown]

namespace Action

/-- A conditional action is compiled to a branch only if its test is known. -/
theorem isKnown_of_test? {key : String} {a : Authored.ActionFields} {c : Condition}
    (h : test? key a = some c) : c.IsKnown := by
  obtain ⟨k, -, hk⟩ := Option.bind_eq_some_iff.1 h
  exact Condition.isKnown_of_known? hk

mutual

/-- **The compiler builds no branch with an unknown test**, at any depth. -/
theorem isKnown_of_mem_tests {a : Authored.Action} {test : Condition}
    (h : test ∈ (ofAuthored a).tests) : test.IsKnown := by
  obtain ⟨fields, thenDo, elseDo, onComplete⟩ := a
  unfold ofAuthored at h
  simp only at h
  split at h
  · cases h
  · split at h
    · rw [tests] at h
      exact isKnown_of_mem_testsOf h
    · rw [tests] at h
      exact isKnown_of_mem_testsOf h
    · rw [tests] at h
      exact isKnown_of_mem_testsOf h
    · cases h
    · split at h
      · next htest =>
          rw [tests, List.mem_cons, List.mem_append] at h
          rcases h with rfl | h | h
          · exact isKnown_of_test? htest
          · exact isKnown_of_mem_testsOf h
          · exact isKnown_of_mem_testsOf h
      · cases h

theorem isKnown_of_mem_testsOf {actions : List Authored.Action} {test : Condition}
    (h : test ∈ testsOf (ofAuthoredList actions)) : test.IsKnown := by
  cases actions with
  | nil => cases h
  | cons a rest =>
      rw [ofAuthoredList, testsOf, List.mem_append] at h
      rcases h with h | h
      · exact isKnown_of_mem_tests h
      · exact isKnown_of_mem_testsOf h

end

end Action

/-- An event that no policy has a say in: its trigger and its conditions are of known types, and its
actions test only conditions of known types. -/
structure Event.IsDecided (e : Event) : Prop where
  trigger : e.trigger.kind.isUnknown = false
  conditions : ∀ c ∈ e.conditions, c.IsKnown
  actions : ∀ test ∈ Action.testsOf e.actions, test.IsKnown

/-- A catalog that was compiled from definitions and passed the audit: no event has an unknown
type. -/
structure Catalog.IsAudited (c : Catalog) : Prop where
  compiled : ∃ definitions, ofAuthored definitions = .ok c
  audited : ∀ e ∈ c.events, e.unknownTypes = []

/-- The unknown trigger and the unknown conditions of an event are among its unknown types. -/
theorem Event.known_of_unknownTypes {e : Event} (h : e.unknownTypes = []) :
    e.trigger.kind.isUnknown = false ∧ ∀ c ∈ e.conditions, c.IsKnown := by
  simp only [unknownTypes, List.append_eq_nil_iff, List.flatMap_eq_nil_iff] at h
  obtain ⟨⟨htrigger, hconditions⟩, -⟩ := h
  refine ⟨?_, fun c hc type hunknown => ?_⟩
  · cases hkind : e.trigger.kind with
    | other type => rw [hkind] at htrigger; cases htrigger
    | _ => rfl
  · have := hconditions c hc
    rw [hunknown] at this
    cases this

/-- **The audit is complete**: it never looks at the test of a branch, but none is unknown. -/
theorem Catalog.IsAudited.decided {c : Catalog} (h : c.IsAudited) {t : String} {x : Candidate}
    (hx : x ∈ c.candidates t) : x.event.IsDecided := by
  obtain ⟨⟨definitions, hcompiled⟩, haudited⟩ := h
  have hevent : x.event ∈ definitions.map Event.ofAuthored :=
    List.mem_of_getElem? (getElem?_of_mem_candidates hcompiled hx)
  have hunknown : x.event.unknownTypes = [] :=
    haudited x.event (events_ofEvents hcompiled ▸ hevent)
  obtain ⟨htrigger, hconditions⟩ := Event.known_of_unknownTypes hunknown
  refine ⟨htrigger, hconditions, fun test htest => ?_⟩
  obtain ⟨definition, -, hdefinition⟩ := List.mem_map.1 hevent
  rw [← hdefinition] at htest
  exact Action.isKnown_of_mem_testsOf htest

/-! ## Runs under different policies -/

/-- The settings with other policies for unknown types. -/
def EngineConfig.withPolicies (config : EngineConfig) (triggers conditions : UnknownPolicy) :
    EngineConfig :=
  { config with
    dispatch := { config.dispatch with
      unknownTriggers := triggers
      unknownConditions := conditions } }

/-- Two settings that differ in the policies for unknown types only. -/
def EngineConfig.VariesPolicies (config config' : EngineConfig) : Prop :=
  ∃ triggers conditions, config' = config.withPolicies triggers conditions

/-- Actions all of whose tests are of known types, in both of two runs. -/
def KnownTests (actions actions' : List Action) : Prop :=
  actions = actions' ∧ ∀ test ∈ Action.testsOf actions, test.IsKnown

/-- A world in which no unknown type was met and none is waiting in what follows a scene. -/
structure World.Sober (w : World) : Prop where
  sequels : ∀ q, some q ∈ w.tokens.map (·.sequel) →
    ∀ test ∈ Action.testsOf q.actions, test.IsKnown
  unknown : w.counters.unknownEvaluations = 0

/-- The same world twice, in which no unknown type was met. -/
structure SameSober (u v : World) : Prop where
  world : v = u
  sober : u.Sober

namespace SameSober

variable {u v : World} {wiring : Wiring}

/-- What leaves the sequels of the tokens and the count of unknown types alone. -/
theorem carry (f : World → World)
    (hsequels : ∀ w, (f w).tokens.map (·.sequel) = w.tokens.map (·.sequel))
    (hunknown : ∀ w, (f w).counters.unknownEvaluations = w.counters.unknownEvaluations) :
    Carries SameSober f f := by
  rintro u _ ⟨rfl, hsober⟩
  refine ⟨rfl, ?_, ?_⟩
  · rw [hsequels]
    exact hsober.sequels
  · rw [hunknown]
    exact hsober.unknown

theorem note (x : Happening) : Carries SameSober (·.note x) (·.note x) :=
  carry (·.note x) (fun _ => rfl) fun _ => rfl

theorem changeGame (f : Game → Game) : Carries SameSober (·.changeGame f) (·.changeGame f) :=
  carry (·.changeGame f) (fun _ => rfl) fun _ => rfl

/-- To use up a token leaves its sequel as it was. -/
theorem spend (token : Nat) (status : TokenStatus) :
    Carries SameSober (·.spend token status) (·.spend token status) := by
  have hsequel : ∀ t : SceneToken, { t with status }.sequel = t.sequel := fun _ => rfl
  exact fun {_ _} h => carry (·.spend token status)
    (fun w => map_modify_of_eq hsequel w.tokens token) (fun _ => rfl) h

/-- Counting anything but unknown types. -/
theorem count {f : Counters → Counters}
    (hf : ∀ n, (f n).unknownEvaluations = n.unknownEvaluations) :
    Carries SameSober (·.count f) (·.count f) :=
  carry (·.count f) (fun _ => rfl) fun w => hf w.counters

theorem conditionsHold {e e' : Engine} {cs : List Condition} (hcs : ∀ c ∈ cs, c.IsKnown)
    (s : SessionState) (h : SameSober u v) :
    Matches SameSober (e.conditionsHold cs s u) (e'.conditionsHold cs s v) := by
  obtain ⟨rfl, hsober⟩ := h
  have hcount : ∀ policy : UnknownPolicy, (fun n : Counters =>
      { n with unknownEvaluations := n.unknownEvaluations + Condition.unknownsMet policy s cs }) =
      id := by
    intro policy
    rw [Condition.unknownsMet_eq_zero hcs]
    rfl
  rw [Engine.conditionsHold, Engine.conditionsHold]
  simp only [hcount]
  exact ⟨Condition.allHold_eq hcs _ _ s, rfl, hsober⟩

theorem triggerMatches {e e' : Engine} {t : Trigger} (ht : t.kind.isUnknown = false) (p : Payload)
    (s : SessionState) (h : SameSober u v) :
    Matches SameSober (e.triggerMatches t p s u) (e'.triggerMatches t p s v) := by
  obtain ⟨rfl, hsober⟩ := h
  rw [Engine.triggerMatches, Engine.triggerMatches]
  simp only [ht]
  exact ⟨Trigger.isMatch_eq ht _ _ p s, rfl, hsober⟩

/-- No receiver can tell one world from the same world. -/
theorem unaware : Unaware wiring wiring KnownTests SameSober where
  removes h := by rw [h.world]
  answer h := by rw [h.world]
  acts h := by rw [h.world]
  tokens h := by
    rw [h.world]
    refine List.forall₂_same.2 fun t ht => ⟨rfl, rfl, Sequel.fits_self fun q hq => ⟨rfl, ?_⟩⟩
    exact h.sober.sequels q (List.mem_map.2 ⟨t, ht, hq⟩)
  noted := note
  acted a hresume := by
    cases a with
    | change f => exact changeGame f
    | park token =>
        exact carry (fun w => { w with queue := w.queue ++ [token] }) (fun _ => rfl) fun _ => rfl
    | keep token =>
        exact carry (fun w => { w with kept := w.kept ++ [token] }) (fun _ => rfl) fun _ => rfl
    | resume token => exact hresume token rfl
  logged entry := by
    refine carry (·.log wiring entry) (fun w => ?_) fun w => ?_
    · obtain ⟨journal, hlog⟩ := w.exists_log wiring entry
      rw [hlog]
    · obtain ⟨journal, hlog⟩ := w.exists_log wiring entry
      rw [hlog]
  filled {u v} h kind answer := by
    rw [h.world]
    refine carry (·.fillIn wiring u.journal.length kind answer) (fun w => ?_) fun w => ?_
    · obtain ⟨journal, hfill⟩ := w.exists_fillIn wiring u.journal.length kind answer
      rw [hfill]
    · obtain ⟨journal, hfill⟩ := w.exists_fillIn wiring u.journal.length kind answer
      rw [hfill]
  handed request answer sequel sequel' hsequel := by
    have heq : sequel' = sequel := by
      cases hsequel with
      | none => rfl
      | @some q q' hq =>
          obtain ⟨engine, actions⟩ := q
          obtain ⟨rfl, rfl, -⟩ := hq
          rfl
    have hknown : ∀ q, sequel = some q → ∀ test ∈ Action.testsOf q.actions, test.IsKnown := by
      rintro q rfl
      cases hsequel with
      | some hq => exact hq.actions.2
    rintro u _ ⟨rfl, hsober⟩
    rw [heq]
    refine ⟨rfl, fun q hq => ?_, hsober.unknown⟩
    simp only [World.hand, List.map_append, List.map_cons, List.map_nil, List.mem_append,
      List.mem_singleton] at hq
    rcases hq with hq | hq
    · exact hsober.sequels q hq
    · exact hknown q hq.symm
  redeemed token _ _ h :=
    count (f := fun n => { n with continuationsResumed := n.continuationsResumed + 1 })
      (fun _ => rfl) (note _ (spend token .resumed h))
  lapsed token _ _ h := note _ (spend token .lapsed h)

/-- What the host does to the queue is the same. -/
theorem hosted : Hosted SameSober where
  queue h := by rw [h.world]
  kept h := by rw [h.world]
  unqueued queue := carry (fun w => { w with queue }) (fun _ => rfl) fun _ => rfl

/-- **Engines with different policies are twins over an audited catalog**, as long as they run
actions whose tests are known. -/
theorem twins {e e' : Engine} (haudited : e.catalog.IsAudited)
    (hcatalog : e'.catalog = e.catalog) (hconfig : e.config.VariesPolicies e'.config)
    (hserial : e'.serial = e.serial) :
    Twins e e' wiring wiring
      ⟨fun _ => True, fun c c' => c = c' ∧ c.event.IsDecided, KnownTests⟩ SameSober where
  limit := by
    obtain ⟨triggers, conditions, hpolicies⟩ := hconfig
    rw [hpolicies]
    rfl
  state h := by rw [h.world]
  depth h := by rw [h.world]
  counted more hmore := count (f := (·.plus more)) fun n => by
    rw [Counters.plus, hmore, Nat.add_zero]
  stalled := note .stalled
  dispatched admitted :=
    carry (fun w => w.note (.dispatched w.depth w.inFlight admitted)) (fun _ => rfl) fun _ => rfl
  entered := carry World.enter (fun _ => rfl) fun _ => rfl
  left := carry World.leave (fun _ => rfl) fun _ => rfl
  raised := trivial
  candidates {t} _ := by
    rw [hcatalog]
    exact List.forall₂_same.2 fun c hc => ⟨rfl, haudited.decided hc⟩
  id := by
    rintro c _ ⟨rfl, -⟩
    rfl
  repeatable := by
    rintro c _ ⟨rfl, -⟩
    rfl
  actions := by
    rintro c _ ⟨rfl, hc⟩
    exact ⟨rfl, hc.actions⟩
  conditions := by
    rintro c _ ⟨rfl, hc⟩ s u v h
    exact h.conditionsHold hc.conditions s
  trigger := by
    rintro c _ ⟨rfl, hc⟩ p s u v h
    exact h.triggerMatches hc.trigger p s
  flying := by
    rintro c _ ⟨rfl, -⟩ u v h
    rw [h.world]
  begun := by
    rintro c _ ⟨rfl, -⟩
    exact carry (Engine.begin c) (fun _ => rfl) fun _ => rfl
  landed := by
    rintro c _ ⟨rfl, -⟩
    exact carry (·.land c.position) (fun _ => rfl) fun _ => rfl
  recorded event := changeGame event.record
  call hreach x _ _ h := unaware.perform hreach.revive x h
  runAll := by
    rintro k hreach actions _ ⟨rfl, hactions⟩ s u v h
    have acting := unaware.acting Condition.IsKnown hserial (fun h => ⟨rfl, h⟩)
      (fun h => by rw [h.world])
      (count (f := fun n => { n with actionsExecuted := n.actionsExecuted + 1 }) fun _ => rfl)
      (fun {test} htest s _ _ h => h.conditionsHold (by simpa using htest) s) hreach
    exact acting.runAll actions hactions s h
  resumption _ _ hruns token := unaware.follow hserial hruns token

end SameSober

/-- What is compared: lists of actions that were compiled from definitions, the same in both runs,
worlds that are the same, and engines that differ in their policies for unknown types only, over
an audited catalog. -/
def policyPairing : Pairing where
  types _ := True
  fits actions actions' :=
    actions = actions' ∧ ∃ definitions, actions = Action.ofAuthoredList definitions
  worlds := SameSober
  engines e e' := e.catalog.IsAudited ∧ e'.catalog = e.catalog ∧
    e.config.VariesPolicies e'.config ∧ e'.serial = e.serial
  wirings _ := True

theorem sound_policyPairing : policyPairing.Sound where
  journal h := by rw [h.world]
  drained := by
    exact SameSober.carry (fun w => { w with journal := [] }) (fun _ => rfl) fun _ => rfl
  lost serial := by
    exact SameSober.note (.engineLost serial)
  renewed {u v} h := by
    obtain ⟨rfl, hsober⟩ := h
    exact ⟨rfl, hsober.sequels, rfl⟩
  serial h := h.2.2.2
  abreast {p q} h := by
    have hcmp : (∀ t, policyPairing.types t → True) ∧ ∀ actions actions',
        policyPairing.fits actions actions' → KnownTests actions actions' := by
      refine ⟨fun _ _ => trivial, ?_⟩
      rintro actions _ ⟨rfl, definitions, rfl⟩
      exact ⟨rfl, fun _ => Action.isKnown_of_mem_testsOf⟩
    refine ⟨⟨fun _ => True, fun c c' => c = c' ∧ c.event.IsDecided, KnownTests⟩, SameSober,
      ⟨⟨h.world, ?_, ?_⟩, ?_, SameSober.hosted⟩, hcmp.1, hcmp.2, fun hworld _ _ => hworld⟩
    · rcases rel_cases h.engine with ⟨hp, hq⟩ | ⟨e, e', hp, hq, haudited, hcatalog, hconfig, hserial⟩
      · rw [hp, hq]
        exact .none
      · have twins : Twins e e' p.wiring p.wiring _ SameSober :=
          SameSober.twins haudited hcatalog hconfig hserial
        rw [hp, hq, h.wiring]
        exact .some ⟨hserial, twins⟩
    · rw [h.wiring]
    · rw [h.wiring]
      exact SameSober.unaware

/-! ## Runs under denial -/

/-- Settings that deny whatever is of an unknown type. -/
structure EngineConfig.Denies (config : EngineConfig) : Prop where
  triggers : config.dispatch.unknownTriggers = .deny
  conditions : config.dispatch.unknownConditions = .deny

/-- An event that waits for something unknown: its trigger or one of its conditions is of a type
outside the vocabulary. -/
def Event.IsObscure (e : Event) : Prop :=
  e.trigger.kind.isUnknown = true ∨ ∃ type, .unknown type ∈ e.conditions

/-- The audit tells triggers, conditions and actions apart. -/
theorem Event.isObscure_of_mem_unknownTypes {e : Event} {type : String}
    (h : "trigger:" ++ type ∈ e.unknownTypes ∨ "condition:" ++ type ∈ e.unknownTypes) :
    e.IsObscure := by
  have hcondition : ∀ x y : String, "trigger:" ++ x ≠ "condition:" ++ y := by
    intro x y hxy
    have hlist := congrArg String.toList hxy
    simp at hlist
  have haction : ∀ x y : String,
      "trigger:" ++ x ≠ "action:" ++ y ∧ "condition:" ++ x ≠ "action:" ++ y := by
    intro x y
    constructor <;> intro hxy <;> have hlist := congrArg String.toList hxy <;> simp at hlist
  -- what the audit lists stands in the part of the event that it names
  simp only [unknownTypes, List.mem_append, List.mem_flatMap, List.mem_map] at h
  rcases h with ((h | ⟨x, -, h⟩) | ⟨x, -, h⟩) | ((h | ⟨x, hx, h⟩) | ⟨x, -, h⟩)
  · refine .inl ?_
    split at h
    · next hkind => rw [hkind, TriggerKind.isUnknown]
    · cases h
  · split at h
    · exact absurd (List.mem_singleton.1 h) (hcondition _ _)
    · cases h
  · exact absurd h.symm (haction _ _).1
  · split at h
    · exact absurd (List.mem_singleton.1 h).symm (hcondition _ _)
    · cases h
  · split at h
    · exact .inr ⟨_, hx⟩
    · cases h
  · exact absurd h.symm (haction _ _).2

/-- **Nothing obscure is eligible** under settings that deny what is unknown. -/
theorem Engine.Eligible.not_isObscure {e : Engine} (hdenies : e.config.Denies) {s : SessionState}
    {inFlight : List Nat} {payload : Payload} {c : Candidate}
    (h : e.Eligible s inFlight payload c) : ¬ c.event.IsObscure := by
  rintro (htrigger | ⟨type, htype⟩)
  · have hmatch := h.trigger
    cases hkind : c.event.trigger.kind with
    | other type =>
        simp only [Trigger.isMatch, hkind, hdenies.triggers] at hmatch
        cases hmatch
    | _ =>
        rw [hkind] at htrigger
        cases htrigger
  · have hholds := h.conditions _ htype
    rw [hdenies.conditions] at hholds
    cases hholds

/-- Nothing obscure was ever begun in a world. -/
def World.IsClear (w : World) : Prop :=
  ∀ m ∈ w.trace, ∀ c, m.happening = .began c → ¬ c.event.IsObscure

namespace World.IsClear

variable {u v : World}

/-- A clear world stays clear if nothing obscure is begun. -/
theorem of_begun (h : u.IsClear) (htrace : u.trace <:+ v.trace)
    (hnew : ∀ c ∈ u.begun v, ¬ c.event.IsObscure) : v.IsClear := by
  obtain ⟨new, htrace⟩ := htrace
  rw [begun_of_trace htrace.symm] at hnew
  intro m hm c hc
  rw [← htrace] at hm
  rcases List.mem_append.1 hm with hm | hm
  · refine hnew c (List.mem_filterMap.2 ⟨m, hm, ?_⟩)
    rw [hc]
    rfl
  · exact h m hm c hc

theorem same (h : u.IsClear) (htrace : v.trace = u.trace) : v.IsClear := by
  intro m hm
  exact h m (htrace ▸ hm)

theorem note (h : u.IsClear) {x : Happening} (hx : x.candidate? = none) : (u.note x).IsClear := by
  refine h.of_begun (List.suffix_cons _ _) ?_
  rw [begun_note u hx]
  exact fun _ hc => absurd hc List.not_mem_nil

/-- Calls and scenes begin nothing by themselves. -/
theorem tracks (alive : Option Nat) (wiring : Wiring) :
    Tracks alive wiring fun u v => u.IsClear → v.IsClear where
  refl _ := id
  trans huv hvw hu := hvw (huv hu)
  touch htouch hu := by
    refine hu.of_begun htouch.steady.trace ?_
    rw [htouch.begun]
    exact fun _ hc => absurd hc List.not_mem_nil

end World.IsClear

/-- A turn begins nothing obscure. -/
theorem Engine.Turned.isClear {e : Engine} (hdenies : e.config.Denies) {wiring : Wiring} {k : Nat}
    (hreach : (e.reach wiring k).Lawful wiring (fun _ u _ v => u.IsClear → v.IsClear) k)
    {s : SessionState} {payload : Payload} {c : Candidate} {w v : World}
    (h : e.Turned wiring (e.reach wiring k) s payload c w v) (hw : w.IsClear) : v.IsClear := by
  have tracks := World.IsClear.tracks (some e.serial) wiring
  cases h with
  | passed _ _ htrace => exact hw.same htrace
  | @executed v took heligible _ hrun =>
      have hbegun : w.begun (begin c (e.checked s payload c w)) = [c] :=
        World.begun_begin c (e.checked s payload c w)
      have hbegan : (begin c (e.checked s payload c w)).IsClear := by
        refine hw.of_begun (List.suffix_cons _ _) ?_
        rw [hbegun]
        exact fun x hx => List.mem_singleton.1 hx ▸ heligible.not_isObscure hdenies
      have hflown : v.IsClear := by
        have acts := Tracks.acts (P := fun _ u v => u.IsClear → v.IsClear) fun _ => tracks
        obtain rfl := congrArg Prod.snd hrun
        exact (acts.runAll hreach _ _ _).law hbegan
      split
      · obtain ⟨x, hx, hannounce⟩ := tracks.announce (hreach.revive.tracked (.acting k) id) c v
        rw [hannounce]
        exact (hx (World.fire_of hflown fun h => h.note rfl)).same rfl
      · exact hflown

/-- **An engine that denies what is unknown begins nothing obscure.** -/
theorem conduct_isClear {e : Engine} (hdenies : e.config.Denies) (wiring : Wiring) :
    Conduct e wiring fun u v => u.IsClear → v.IsClear where
  toTracks := World.IsClear.tracks _ wiring
  stalled _ hw := hw.note rfl
  dispatch {k} hreach t w _ payload hw := by
    rw [Engine.dispatch]
    split
    · exact hw.note rfl
    · refine Engine.sweep_induct (Q := fun _ u v => u.IsClear → v.IsClear) (fun _ hc => hc)
        (fun _ => rfl) (fun _ => id) (fun _ hturn hrest hu => hrest (hturn.isClear hdenies hreach hu))
        (hw.note rfl)

/-- So it is between moves, whatever the host does. -/
theorem Play.governed_isClear {p : Play}
    (hdenies : ∀ e, p.engine = some e → e.config.Denies) :
    p.Governed (fun _ => True) fun u v => u.IsClear → v.IsClear where
  conduct e he := conduct_isClear (hdenies e he) p.wiring
  vacant _ := World.IsClear.tracks none p.wiring
  arranged _ _ _ := id
  seen _ := trivial
  unqueued _ _ := id
  announced _ _ hw := hw.note rfl
  lost _ _ hw := hw.note rfl
  renewed _ _ := id

/-- **The audit is complete for the policies.** Let a catalog be compiled from definitions and let no
event of it have an unknown type, and let the host run compiled actions only. Then settings that
differ in their policies for unknown types cannot be told apart: whatever the host does, even
if it goes on with other such catalogs and settings, it gets the same answers, reads the same
journal and comes to the same world, and no unknown type is ever met. And under settings that deny
what is unknown, whatever the catalog, the game and the actions that the host runs, no event whose
trigger or one of whose conditions the audit finds unknown is ever begun. -/
theorem audit_is_complete :
    (∀ {catalog : Catalog} {config config' : EngineConfig} {steps steps' : List HostStep},
      catalog.IsAudited → config.VariesPolicies config' →
      List.Forall₂ (HostStep.Fits (Move.Paired policyPairing)) steps steps' →
      ∀ (wiring : Wiring) (state : SessionState),
        let r := (Play.start catalog config wiring state).proceed steps
        let r' := (Play.start catalog config' wiring state).proceed steps'
        r'.answers = r.answers ∧ r'.taken = r.taken ∧ r'.play.world = r.play.world ∧
          r.play.world.counters.unknownEvaluations = 0) ∧
    (∀ {config : EngineConfig} {steps : List HostStep}, config.Denies →
      (∀ c config, .move (.restart c config) ∈ steps → config.Denies) →
      ∀ (catalog : Catalog) (wiring : Wiring) (state : SessionState),
        ∀ m ∈ ((Play.start catalog config wiring state).proceed steps).play.world.trace,
          ∀ c, m.happening = .began c → ∀ type,
            "trigger:" ++ type ∉ c.event.unknownTypes ∧
              "condition:" ++ type ∉ c.event.unknownTypes) := by
  constructor
  · intro catalog config config' steps steps' haudited hpolicies hsteps wiring state r r'
    have hsober : World.Sober { game := { state } } := by
      refine ⟨fun q hq => ?_, rfl⟩
      cases hq
    have hstart : (Play.start catalog config wiring state).Paired policyPairing
        (Play.start catalog config' wiring state) :=
      ⟨⟨rfl, hsober⟩, rfl, rfl, .some ⟨haudited, rfl, hpolicies, rfl⟩, rfl, rfl, trivial⟩
    obtain ⟨hanswers, htaken, hlast⟩ := hstart.proceed sound_policyPairing hsteps
    exact ⟨hanswers, htaken, hlast.world.world, hlast.world.sober.unknown⟩
  · intro config steps hdenies hrestarts catalog wiring state m hm c hc type
    have hready : (Play.start catalog config wiring state).Ready (fun e => e.config.Denies)
        fun _ => True := .start hdenies trivial state
    have hsteps : ∀ m, .move m ∈ steps →
        m.Within (fun e => e.config.Denies) (fun _ => True) fun _ => True := by
      intro m hm
      refine ⟨fun {c config} heq _ => ?_, fun _ => trivial, fun _ _ => trivial⟩
      exact hrestarts c config (heq ▸ hm)
    have hclear := (hready.proceed (P := fun u v => u.IsClear → v.IsClear) (fun _ => id)
      (fun huv hvw hu => hvw (huv hu)) (fun _ => id) (fun hp hm =>
        (Play.governed_isClear hp.engine).move hp.depth hp.inFlight hm.change) hsteps).2
    have hbegan : ¬ c.event.IsObscure := hclear (fun m hm => by cases hm) m hm c hc
    exact ⟨fun h => hbegan (Event.isObscure_of_mem_unknownTypes (.inl h)),
      fun h => hbegan (Event.isObscure_of_mem_unknownTypes (.inr h))⟩

/-- A feast for whoever knocks, with a branch inside a branch. -/
def feast : Authored.Event where
  id := "feast"
  trigger := { type := "player_action", action := some "knock" }
  actions := [.mk { type := "if_quest_active", questId := some "feud" }
    [.mk { type := "give_xp", xp := some 1 } [] [] []]
    [.mk { type := "if_milestone_not_set", milestone := some "fed" }
      [.mk { type := "give_xp", xp := some 5 } [] [] []] [] []] []]
  repeatable := true

/-- An event that waits for something nobody has heard of. -/
def omen : Authored.Event where
  id := "omen"
  trigger := { type := "player_action" }
  conditions := [{ type := "moon_is_full" }]
  actions := [.mk { type := "give_xp", xp := some 7 } [] [] []]
  repeatable := true

/-- The default settings, but for unknown types, which are denied. -/
def denial : EngineConfig := { dispatch := { unknownTriggers := .deny, unknownConditions := .deny } }

/-- A knock and a second helping. -/
def feasting : List HostStep :=
  [.move (.occur (.playerAction "knock" none)),
    .move (.perform (Action.ofAuthoredList feast.actions)), .drain]

/-- What comes of it. -/
def feasted (c : Catalog) (config : EngineConfig) : Proceedings :=
  (Play.start c config ⟨.session .park, true⟩ {}).proceed feasting

/-- Nobody can tell at the feast whether unknown types are denied. The omen shows as soon as they are
allowed, and never while they are denied. -/
theorem feast_is_audited : ∃ c c', Catalog.ofAuthored [feast] = .ok c ∧
    Catalog.ofAuthored [feast, omen] = .ok c' ∧
    (feasted c {}).play.world.game.progress.xp = 10 ∧
    (feasted c' {}).play.world.game.progress.xp = 17 ∧
    (feasted c denial).taken = (feasted c {}).taken ∧
    (feasted c denial).play.world = (feasted c {}).play.world ∧
    ∀ m ∈ (feasted c' denial).play.world.trace, ∀ x, m.happening = .began x →
      "condition:" ++ "moon_is_full" ∉ x.event.unknownTypes := by
  refine ⟨_, _, rfl, rfl, by decide +kernel, by decide +kernel, ?_⟩
  have hcompiled : Catalog.ofAuthored [feast] = .ok _ := rfl
  have haudited : Catalog.IsAudited _ := ⟨⟨_, hcompiled⟩, by decide +kernel⟩
  have hpolicies : EngineConfig.VariesPolicies {} denial := ⟨.deny, .deny, rfl⟩
  have hknock : (Move.occur (.playerAction "knock" none)).Paired policyPairing
      (.occur (.playerAction "knock" none)) := .fits (.occur trivial)
  have hperform : (Move.perform (Action.ofAuthoredList feast.actions)).Paired policyPairing
      (.perform (Action.ofAuthoredList feast.actions)) := .fits (.perform ⟨rfl, _, rfl⟩)
  have hsteps : List.Forall₂ (HostStep.Fits (Move.Paired policyPairing)) feasting feasting :=
    .cons (.move hknock) (.cons (.move hperform) (.cons .drain .nil))
  obtain ⟨-, htaken, hworld, -⟩ :=
    audit_is_complete.1 haudited hpolicies hsteps ⟨.session .park, true⟩ {}
  have hdenied : denial.Denies := ⟨rfl, rfl⟩
  have hrestarts : ∀ c config, .move (.restart c config) ∈ feasting → config.Denies := by
    simp [feasting]
  have hnever := audit_is_complete.2 hdenied hrestarts
  refine ⟨htaken, ?_, fun m hm x hx => ?_⟩
  · rw [feasted, feasted]
    exact hworld
  · rw [feasted] at hm
    exact (hnever _ ⟨.session .park, true⟩ {} m hm x hx "moon_is_full").2

end Narrative
