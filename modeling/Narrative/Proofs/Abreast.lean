import Narrative.Proofs.Moves
import Narrative.Proofs.Parallel

set_option autoImplicit false

/-!
# Two plays side by side

Two plays whose engines are kin answer alike to whatever the host asks the engines for
(`Play.Kindred.ask`). If moreover their receivers cannot tell the worlds apart (`Play.Level`), so
they do to all corresponding moves, and the worlds stay related (`Play.Level.move`).

The engines may be exchanged for others between moves, and the relation that holds during a move
may depend on the engines that are there. So what is compared over a whole run (`Pairing`) is what
holds between moves; if it is fair, corresponding runs are answered alike (`Play.Paired.compares`).

Twins are kin whose verdicts are the same. Plays with twins (`Play.Crewed`, `Play.Abreast`) give the
same answers, and runs of a pairing that is sound come to the same (`Play.Paired.proceed`).
-/

namespace Narrative

/-- A relation between worlds that agrees on the queue and the kept callbacks, and survives that a
scene is taken out of the queue. -/
structure Hosted (R : World → World → Prop) : Prop where
  queue : ∀ {u v : World}, R u v → v.queue = u.queue
  kept : ∀ {u v : World}, R u v → v.kept = u.kept
  unqueued : ∀ queue : List Nat, Carries R (fun w => { w with queue }) (fun w => { w with queue })

/-- Corresponding moves that leave engines and wiring alone but for dropping an engine: both submit
a trigger type that is compared, or run corresponding actions, or are the same. -/
inductive Move.Fits (types : String → Prop) (fits : List Action → List Action → Prop) :
    Move → Move → Prop where
  | trigger {t : String} (ht : types t) (payload : Payload) :
      Fits types fits (.trigger t payload) (.trigger t payload)
  | occur {o : Occurrence} (ho : types o.triggerType) : Fits types fits (.occur o) (.occur o)
  | perform {actions actions' : List Action} (h : fits actions actions') :
      Fits types fits (.perform actions) (.perform actions')
  | execute {actions actions' : List Action} (h : fits actions actions') (s : SessionState) :
      Fits types fits (.execute actions s) (.execute actions' s)
  | finishScene : Fits types fits .finishScene .finishScene
  | resumeKept (index : Nat) : Fits types fits (.resumeKept index) (.resumeKept index)
  | dropEngine : Fits types fits .dropEngine .dropEngine
  | setState (s : SessionState) : Fits types fits (.setState s) (.setState s)
  | setRoom (room : String) : Fits types fits (.setRoom room) (.setRoom room)
  | markEvent (event : String) : Fits types fits (.markEvent event) (.markEvent event)
  | effect (x : Effect) : Fits types fits (.effect x) (.effect x)
  | scene (request : SceneRequest) : Fits types fits (.scene request) (.scene request)

theorem Move.Fits.mono {types types' : String → Prop}
    {fits fits' : List Action → List Action → Prop}
    (htypes : ∀ t, types t → types' t) (hfits : ∀ actions actions', fits actions actions' →
      fits' actions actions') {m m' : Move} (hm : m.Fits types fits m') :
    m.Fits types' fits' m' := by
  cases hm with
  | trigger ht payload => exact .trigger (htypes _ ht) payload
  | occur ho => exact .occur (htypes _ ho)
  | perform h => exact .perform (hfits _ _ h)
  | execute h s => exact .execute (hfits _ _ h) s
  | _ => constructor

/-- Such moves leave both plays with the engines they had, or without. -/
theorem Move.Fits.frame {types : String → Prop} {fits : List Action → List Action → Prop}
    {m m' : Move} (hm : m.Fits types fits m') {E : Engine → Engine → Prop} {p q : Play}
    (h : Option.Rel E p.engine q.engine) (hengines : q.engines = p.engines) :
    Option.Rel E (p.move m).2.engine (q.move m').2.engine ∧
      (q.move m').2.engines = (p.move m).2.engines ∧ (p.move m).2.wiring = p.wiring ∧
      (q.move m').2.wiring = q.wiring := by
  have hplain : m.IsPlain True → m'.IsPlain True →
      Option.Rel E (p.move m).2.engine (q.move m').2.engine ∧
      (q.move m').2.engines = (p.move m).2.engines ∧ (p.move m).2.wiring = p.wiring ∧
      (q.move m').2.wiring = q.wiring := by
    intro hm hm'
    obtain ⟨hp, hp', hp''⟩ := Play.move_frame (p := p) hm
    obtain ⟨hq, hq', hq''⟩ := Play.move_frame (p := q) hm'
    rw [hp, hq, hp', hq', hp'', hq'']
    exact ⟨h, hengines, rfl, rfl⟩
  cases hm with
  | dropEngine =>
      obtain ⟨hp, hp', hp''⟩ := p.frame_dropEngine
      obtain ⟨hq, hq', hq''⟩ := q.frame_dropEngine
      rw [Play.move_dropEngine, Play.move_dropEngine, hp, hq, hp', hq', hp'', hq'']
      exact ⟨.none, hengines, rfl, rfl⟩
  | _ => exact hplain trivial trivial

/-- Two plays with corresponding engines: their worlds are related, and either both have an engine
and these are twins, or neither has one. -/
structure Play.Crewed (cmp : Comparison) (R : World → World → Prop) (p q : Play) : Prop where
  world : R p.world q.world
  engine : Option.Rel (fun e e' => e'.serial = e.serial ∧ Twins e e' p.wiring q.wiring cmp R)
    p.engine q.engine
  nesting : q.wiring.receiver.nesting = p.wiring.receiver.nesting

/-- Two plays that correspond: their engines do, and their receivers cannot tell the worlds
apart. -/
structure Play.Abreast (cmp : Comparison) (R : World → World → Prop) (p q : Play) : Prop
    extends Play.Crewed cmp R p q where
  unaware : Unaware p.wiring q.wiring cmp.fits R
  hosted : Hosted R

/-- Two plays whose engines are kin: their worlds are related, and either both have an engine or
neither has one. -/
structure Play.Kindred (cmp : Comparison) (V : Verdict → Verdict → Prop)
    (R : World → World → Prop) (p q : Play) : Prop where
  world : R p.world q.world
  engine : Option.Rel (fun e e' => e'.serial = e.serial ∧ Kin e e' p.wiring q.wiring cmp V R)
    p.engine q.engine
  nesting : q.wiring.receiver.nesting = p.wiring.receiver.nesting

/-- Two plays whose engines are kin and whose receivers cannot tell the worlds apart. -/
structure Play.Level (cmp : Comparison) (V : Verdict → Verdict → Prop) (R : World → World → Prop)
    (p q : Play) : Prop extends Play.Kindred cmp V R p q where
  unaware : Unaware p.wiring q.wiring cmp.fits R
  hosted : Hosted R

/-- Twins are kin. -/
theorem Play.Crewed.kindred {cmp : Comparison} {R : World → World → Prop} {p q : Play}
    (h : p.Crewed cmp R q) : p.Kindred cmp Eq R q where
  world := h.world
  engine := by
    rcases rel_cases h.engine with ⟨hp, hq⟩ | ⟨e, e', hp, hq, hserial, twins⟩
    · rw [hp, hq]
      exact .none
    · rw [hp, hq]
      exact .some ⟨hserial, twins.kin⟩
  nesting := h.nesting

theorem Play.Abreast.level {cmp : Comparison} {R : World → World → Prop} {p q : Play}
    (h : p.Abreast cmp R q) : p.Level cmp Eq R q where
  toKindred := h.toCrewed.kindred
  unaware := h.unaware
  hosted := h.hosted

/-- Two answers to a move that correspond: reports that do, or the same answer twice. -/
inductive Answer.Compares (V : Verdict → Verdict → Prop) : Answer → Answer → Prop where
  | report {r r' : Report} (h : r.Compares V r') : Compares V (.report r) (.report r')
  | same (answer : Answer) : Compares V answer answer

theorem Answer.Compares.of_eq {V : Verdict → Verdict → Prop} {a a' : Answer} (h : a' = a) :
    a.Compares V a' := by
  rw [h]
  exact .same a

/-- Answers whose verdicts are the same are the same. -/
theorem Answer.Compares.eq {a a' : Answer} (h : a.Compares Eq a') : a' = a := by
  cases h with
  | report hreport => rw [hreport.eq]
  | same => rfl

theorem Answer.eq_of_compares {as as' : List Answer} (h : List.Forall₂ (Answer.Compares Eq) as as') :
    as' = as := by
  induction h with
  | nil => rfl
  | cons hhead _ ih => rw [hhead.eq, ih]

/-- A move that leaves engines and wiring alone corresponds to itself. -/
theorem Move.fits_self {m : Move} (hrewire : ∀ wiring, m ≠ .rewire wiring)
    (hrestart : ∀ catalog config, m ≠ .restart catalog config) :
    m.Fits (fun _ => True) Eq m := by
  cases m with
  | rewire wiring => exact absurd rfl (hrewire wiring)
  | restart catalog config => exact absurd rfl (hrestart catalog config)
  | _ => constructor <;> trivial

/-- Plays with the same engine are abreast if their receivers cannot tell the worlds apart. -/
theorem Blind.abreast {R : World → World → Prop} {p q : Play} (blind : Blind p.wiring q.wiring R)
    (hosted : Hosted R) (hworld : R p.world q.world) (hengine : q.engine = p.engine)
    (hnesting : q.wiring.receiver.nesting = p.wiring.receiver.nesting) :
    p.Abreast ⟨fun _ => True, Eq, Eq⟩ R q where
  world := hworld
  engine := by
    rw [hengine]
    cases p.engine with
    | none => exact .none
    | some e => exact .some ⟨rfl, (blind.parallel e).twins⟩
  unaware := blind.unaware
  nesting := hnesting
  hosted := hosted

namespace Play.Kindred

variable {cmp : Comparison} {V : Verdict → Verdict → Prop} {R : World → World → Prop} {p q : Play}

/-- Kin have as much room for nested calls. -/
theorem clock (h : p.Kindred cmp V R q) {e e' : Engine}
    (kin : Kin e e' p.wiring q.wiring cmp V R) : e'.clock q.wiring = e.clock p.wiring := by
  rw [Engine.clock, Engine.clock, kin.limit, h.nesting]

/-- What the engines are asked for comes to the same if it does so in the worlds. -/
theorem withEngine (h : p.Kindred cmp V R q) {act act' : Engine → World → Answer × World}
    (hact : ∀ {e e' : Engine}, Kin e e' p.wiring q.wiring cmp V R →
      e'.clock q.wiring = e.clock p.wiring →
      Compares (Answer.Compares V) R (act e p.world) (act' e' q.world)) :
    (p.withEngine act).1.Compares V (q.withEngine act').1 ∧
      R (p.withEngine act).2.world (q.withEngine act').2.world := by
  rcases rel_cases h.engine with ⟨hp, hq⟩ | ⟨e, e', hp, hq, -, kin⟩
  · simp only [Play.withEngine, hp, hq]
    exact ⟨.same _, h.world⟩
  · have hcompares := hact kin (h.clock kin)
    simp only [Play.withEngine, hp, hq]
    exact ⟨hcompares.answer, hcompares.world⟩

/-- **Whatever corresponding engines are asked for comes to the same.** -/
theorem ask (h : p.Kindred cmp V R q)
    (hchanged : ∀ f : Game → Game, R (p.world.changeGame f) (q.world.changeGame f)) {m m' : Move}
    (hm : m.Fits cmp.types cmp.fits m') (hask : m.IsAsk) :
    (p.move m).1.Compares V (q.move m').1 ∧ R (p.move m).2.world (q.move m').2.world := by
  cases hm with
  | trigger ht payload =>
      refine h.withEngine fun kin hclock => ?_
      have hreport := kin.handle hclock ht payload h.world
      exact ⟨.report hreport.answer, hreport.world⟩
  | @occur o ho =>
      -- entering a room changes the game in both
      have hprepared : R (o.prepare p.world) (o.prepare q.world) := by
        unfold Occurrence.prepare
        split
        · exact hchanged _
        · exact h.world
      refine h.withEngine fun kin hclock => ?_
      have hreport := kin.handle hclock ho o.payload hprepared
      exact ⟨.report hreport.answer, hreport.world⟩
  | perform hactions =>
      refine h.withEngine fun kin hclock => ?_
      have htook := kin.perform hclock hactions h.world
      exact ⟨.of_eq (congrArg Answer.took htook.answer), htook.world⟩
  | execute hactions s =>
      refine h.withEngine fun kin hclock => ?_
      have htook := kin.execute hclock hactions s h.world
      exact ⟨.of_eq (congrArg Answer.took htook.answer), htook.world⟩
  | _ => exact hask.elim

end Play.Kindred

/-- Whatever twins are asked for is answered the same. -/
theorem Play.Crewed.ask {cmp : Comparison} {R : World → World → Prop} {p q : Play}
    (h : p.Crewed cmp R q)
    (hchanged : ∀ f : Game → Game, R (p.world.changeGame f) (q.world.changeGame f)) {m m' : Move}
    (hm : m.Fits cmp.types cmp.fits m') (hask : m.IsAsk) :
    (q.move m').1 = (p.move m).1 ∧ R (p.move m).2.world (q.move m').2.world := by
  obtain ⟨hanswer, hworld⟩ := h.kindred.ask hchanged hm hask
  exact ⟨hanswer.eq, hworld⟩

namespace Play.Level

variable {cmp : Comparison} {V : Verdict → Verdict → Prop} {R : World → World → Prop} {p q : Play}

/-- Between moves a token is resumed alike. -/
theorem resume (h : p.Level cmp V R q) (token : Nat) :
    Carries R (p.resume token) (q.resume token) := by
  refine h.unaware.resume (fun {s s'} hs => rel_bind h.engine ?_) token
  rintro e e' ⟨hserial, kin⟩
  simp only [Engine.follow, hs.engine, hserial]
  split
  · exact .some (kin.continueWith_outlets (h.clock kin) hs.actions)
  · exact .none

/-- The oldest parked scene comes to the same end. -/
theorem finishScene (h : p.Level cmp V R q) : Matches R p.finishScene q.finishScene := by
  unfold Play.finishScene
  rw [h.hosted.queue h.world]
  split
  · exact ⟨rfl, h.world⟩
  · next token rest _ =>
      have hpopped := h.hosted.unqueued rest h.world
      simp only
      rcases rel_cases (forall₂_getElem? (h.unaware.tokens h.world) token) with
        ⟨hp, hq⟩ | ⟨t, t', hp, hq, ht⟩
      · rw [hp, hq]
        exact ⟨rfl, hpopped⟩
      · rw [hp, hq]
        simp only [ht.request]
        exact ⟨rfl, h.resume token (h.unaware.changed _ hpopped)⟩

/-- **Corresponding moves are answered alike and leave related worlds.** -/
theorem move (h : p.Level cmp V R q) {m m' : Move} (hm : m.Fits cmp.types cmp.fits m') :
    (p.move m).1.Compares V (q.move m').1 ∧ R (p.move m).2.world (q.move m').2.world := by
  have hchanged : ∀ f : Game → Game, R (p.world.changeGame f) (q.world.changeGame f) :=
    fun f => h.unaware.changed f h.world
  have hrevive : ¬ p.wiring.receiver.IsDirect → ∀ token,
      Carries R (p.resume token) (q.resume token) := fun _ => h.resume
  cases hm with
  | trigger ht payload => exact h.ask hchanged (.trigger ht payload) trivial
  | occur ho => exact h.ask hchanged (.occur ho) trivial
  | perform hactions => exact h.ask hchanged (.perform hactions) trivial
  | execute hactions s => exact h.ask hchanged (.execute hactions s) trivial
  | finishScene =>
      have hfinished := h.finishScene
      exact ⟨.of_eq (congrArg Answer.finished hfinished.answer), hfinished.world⟩
  | resumeKept index =>
      unfold Play.move
      simp only [h.hosted.kept h.world]
      split
      · exact ⟨.same _, h.resume _ h.world⟩
      · exact ⟨.same _, h.world⟩
  | dropEngine =>
      unfold Play.move Play.dropEngine
      rcases rel_cases h.engine with ⟨hp, hq⟩ | ⟨e, e', hp, hq, hserial, -⟩
      · rw [hp, hq]
        exact ⟨.same _, h.world⟩
      · rw [hp, hq]
        refine ⟨.same _, ?_⟩
        simp only [hserial]
        exact h.unaware.noted _ h.world
  | setState s => exact ⟨.same _, hchanged ({ · with state := s })⟩
  | setRoom room => exact ⟨.same _, hchanged (·.enterRoom room)⟩
  | markEvent event => exact ⟨.same _, hchanged (·.markEvent event)⟩
  | effect x =>
      have hperformed := h.unaware.perform hrevive x h.world
      exact ⟨.of_eq (congrArg Answer.accepted hperformed.answer), hperformed.world⟩
  | scene request =>
      have hown : Carries R (p.resume p.world.tokens.length) (q.resume q.world.tokens.length) := by
        rw [h.unaware.length_tokens h.world]
        exact h.resume p.world.tokens.length
      have hplayed := h.unaware.playScene hrevive request .none hown h.world
      exact ⟨.of_eq (congrArg Answer.playback hplayed.answer), hplayed.world⟩

end Play.Level

/-- Corresponding moves of plays with twins are answered the same. -/
theorem Play.Abreast.move {cmp : Comparison} {R : World → World → Prop} {p q : Play}
    (h : p.Abreast cmp R q) {m m' : Move} (hm : m.Fits cmp.types cmp.fits m') :
    (q.move m').1 = (p.move m).1 ∧ R (p.move m).2.world (q.move m').2.world := by
  obtain ⟨hanswer, hworld⟩ := h.level.move hm
  exact ⟨hanswer.eq, hworld⟩

/-! ## Runs of the host -/

/-- Corresponding steps of two hosts: corresponding moves, or both read the journal. -/
inductive HostStep.Fits (M : Move → Move → Prop) : HostStep → HostStep → Prop where
  | move {m m' : Move} (h : M m m') : Fits M (.move m) (.move m')
  | drain : Fits M .drain .drain

/-- **What holds of one step of the host holds of a whole run**: the answers correspond, the same
entries are taken out of the journal, and the plays still correspond at the end. -/
theorem Play.proceed_agree {P : Play → Play → Prop} {M : Move → Move → Prop}
    {A : Answer → Answer → Prop}
    (hmove : ∀ {p q : Play} {m m' : Move}, P p q → M m m' →
      A (p.move m).1 (q.move m').1 ∧ P (p.move m).2 (q.move m').2)
    (hdrain : ∀ {p q : Play}, P p q → q.drain.1 = p.drain.1 ∧ P p.drain.2 q.drain.2)
    {steps steps' : List HostStep} (hsteps : List.Forall₂ (HostStep.Fits M) steps steps')
    {p q : Play} (h : P p q) :
    List.Forall₂ A (p.proceed steps).answers (q.proceed steps').answers ∧
      (q.proceed steps').taken = (p.proceed steps).taken ∧
      P (p.proceed steps).play (q.proceed steps').play := by
  induction hsteps generalizing p q with
  | nil => exact ⟨.nil, rfl, h⟩
  | cons hstep _ ih =>
      cases hstep with
      | move hm =>
          obtain ⟨hanswer, hnext⟩ := hmove h hm
          obtain ⟨hanswers, htaken, hlast⟩ := ih hnext
          exact ⟨.cons hanswer hanswers, htaken, hlast⟩
      | drain =>
          obtain ⟨hentries, hnext⟩ := hdrain h
          obtain ⟨hanswers, htaken, hlast⟩ := ih hnext
          exact ⟨hanswers, congrArg₂ (· ++ ·) hentries htaken, hlast⟩

/-- What of two runs is compared: the trigger types that are submitted and the actions that are run,
and, between moves, the worlds, the engines and the wiring, which is the same in both. -/
structure Pairing where
  types : String → Prop
  fits : List Action → List Action → Prop
  worlds : World → World → Prop
  engines : Engine → Engine → Prop
  wirings : Wiring → Prop

/-- Corresponding moves of two hosts, which may also rewire their games alike and start
corresponding engines. -/
inductive Move.Paired (pairing : Pairing) : Move → Move → Prop where
  | fits {m m' : Move} (h : m.Fits pairing.types pairing.fits m') : Paired pairing m m'
  | rewire {wiring : Wiring} (h : pairing.wirings wiring) :
      Paired pairing (.rewire wiring) (.rewire wiring)
  | restart {c c' : Catalog} {config config' : EngineConfig}
      (h : ∀ serial, pairing.engines ⟨c, config, serial⟩ ⟨c', config', serial⟩) :
      Paired pairing (.restart c config) (.restart c' config')

/-- Two plays between moves that correspond. -/
structure Play.Paired (pairing : Pairing) (p q : Play) : Prop where
  world : pairing.worlds p.world q.world
  idle : p.world.inFlight = []
  idle' : q.world.inFlight = []
  engine : Option.Rel pairing.engines p.engine q.engine
  engines : q.engines = p.engines
  wiring : q.wiring = p.wiring
  wired : pairing.wirings p.wiring

/-- What a pairing has to keep to: it survives what the host does to the world, and during a move
corresponding plays are abreast of one another, in a comparison that covers what the host submits
and runs. -/
structure Pairing.Sound (pairing : Pairing) : Prop where
  journal : ∀ {u v : World}, pairing.worlds u v → v.journal = u.journal
  drained : Carries pairing.worlds (fun w => { w with journal := [] })
    (fun w => { w with journal := [] })
  lost : ∀ serial, Carries pairing.worlds (·.note (.engineLost serial))
    (·.note (.engineLost serial))
  renewed : Carries pairing.worlds
    (fun w => { w with counters := {}, depth := 0, inFlight := [] })
    (fun w => { w with counters := {}, depth := 0, inFlight := [] })
  serial : ∀ {e e' : Engine}, pairing.engines e e' → e'.serial = e.serial
  abreast : ∀ {p q : Play}, p.Paired pairing q →
    ∃ (cmp : Comparison) (R : World → World → Prop), p.Abreast cmp R q ∧
      (∀ t, pairing.types t → cmp.types t) ∧
      (∀ actions actions', pairing.fits actions actions' → cmp.fits actions actions') ∧
      ∀ {u v : World}, R u v → u.inFlight = [] → v.inFlight = [] → pairing.worlds u v

/-- What a pairing has to keep to if the verdicts about corresponding candidates are related by `V`:
as `Pairing.Sound`, with engines that are kin during a move. -/
structure Pairing.Fair (pairing : Pairing) (V : Verdict → Verdict → Prop) : Prop where
  journal : ∀ {u v : World}, pairing.worlds u v → v.journal = u.journal
  drained : Carries pairing.worlds (fun w => { w with journal := [] })
    (fun w => { w with journal := [] })
  lost : ∀ serial, Carries pairing.worlds (·.note (.engineLost serial))
    (·.note (.engineLost serial))
  renewed : Carries pairing.worlds
    (fun w => { w with counters := {}, depth := 0, inFlight := [] })
    (fun w => { w with counters := {}, depth := 0, inFlight := [] })
  serial : ∀ {e e' : Engine}, pairing.engines e e' → e'.serial = e.serial
  level : ∀ {p q : Play}, p.Paired pairing q →
    ∃ (cmp : Comparison) (R : World → World → Prop), p.Level cmp V R q ∧
      (∀ t, pairing.types t → cmp.types t) ∧
      (∀ actions actions', pairing.fits actions actions' → cmp.fits actions actions') ∧
      ∀ {u v : World}, R u v → u.inFlight = [] → v.inFlight = [] → pairing.worlds u v

theorem Pairing.Sound.fair {pairing : Pairing} (sound : pairing.Sound) : pairing.Fair Eq where
  journal := sound.journal
  drained := sound.drained
  lost := sound.lost
  renewed := sound.renewed
  serial := sound.serial
  level h := by
    obtain ⟨cmp, R, habreast, hrest⟩ := sound.abreast h
    exact ⟨cmp, R, habreast.level, hrest⟩

namespace Play.Paired

variable {pairing : Pairing} {p q : Play}

section Fair

variable {V : Verdict → Verdict → Prop} (fair : pairing.Fair V)

include fair

/-- The engines that take the place of others start from corresponding worlds. -/
theorem restart (h : p.Paired pairing q) {c c' : Catalog} {config config' : EngineConfig}
    (hengine : ∀ serial, pairing.engines ⟨c, config, serial⟩ ⟨c', config', serial⟩) :
    (p.restart c config).Paired pairing (q.restart c' config') := by
  have hdropped : pairing.worlds p.dropEngine.world q.dropEngine.world := by
    unfold Play.dropEngine
    rcases rel_cases h.engine with ⟨hp, hq⟩ | ⟨e, e', hp, hq, he⟩
    · rw [hp, hq]
      exact h.world
    · simp only [hp, hq, fair.serial he]
      exact fair.lost e.serial h.world
  obtain ⟨-, hp, hp'⟩ := p.frame_dropEngine
  obtain ⟨-, hq, hq'⟩ := q.frame_dropEngine
  have hengines : q.dropEngine.engines = p.dropEngine.engines := by rw [hp, hq, h.engines]
  refine ⟨fair.renewed hdropped, rfl, rfl, .some ?_, congrArg (· + 1) hengines, ?_, ?_⟩
  · rw [hengines]
    exact hengine _
  · exact hq'.trans (h.wiring.trans hp'.symm)
  · show pairing.wirings p.dropEngine.wiring
    rw [hp']
    exact h.wired

/-- **Corresponding moves are answered alike**, and the plays correspond afterwards. -/
theorem move (h : p.Paired pairing q) {m m' : Move} (hm : m.Paired pairing m') :
    (p.move m).1.Compares V (q.move m').1 ∧ (p.move m).2.Paired pairing (q.move m').2 := by
  cases hm with
  | restart hengine => exact ⟨.same _, h.restart fair hengine⟩
  | rewire hwired => exact ⟨.same _, h.world, h.idle, h.idle', h.engine, h.engines, rfl, hwired⟩
  | fits hm =>
      obtain ⟨cmp, R, hlevel, htypes, hfits, hrest⟩ := fair.level h
      obtain ⟨hanswer, hworld⟩ := hlevel.move (hm.mono htypes hfits)
      obtain ⟨hengine, hengines, hp, hq⟩ := hm.frame h.engine h.engines
      have hidle := p.idle_move h.idle m
      have hidle' := q.idle_move h.idle' m'
      refine ⟨hanswer, hrest hworld hidle hidle', hidle, hidle', hengine, hengines, ?_, ?_⟩
      · rw [hp, hq, h.wiring]
      · rw [hp]
        exact h.wired

/-- To read the journal gives the same entries. -/
theorem drain (h : p.Paired pairing q) :
    q.drain.1 = p.drain.1 ∧ p.drain.2.Paired pairing q.drain.2 :=
  ⟨fair.journal h.world, fair.drained h.world, h.idle, h.idle', h.engine, h.engines, h.wiring,
    h.wired⟩

/-- **Corresponding runs of two hosts come to the same**, up to the verdicts in the reports. -/
theorem compares {steps steps' : List HostStep}
    (hsteps : List.Forall₂ (HostStep.Fits (Move.Paired pairing)) steps steps')
    (h : p.Paired pairing q) :
    List.Forall₂ (Answer.Compares V) (p.proceed steps).answers (q.proceed steps').answers ∧
      (q.proceed steps').taken = (p.proceed steps).taken ∧
      (p.proceed steps).play.Paired pairing (q.proceed steps').play :=
  Play.proceed_agree (fun h hm => h.move fair hm) (fun h => h.drain fair) hsteps h

end Fair

/-- **Corresponding runs of two hosts come to the same.** -/
theorem proceed (sound : pairing.Sound) {steps steps' : List HostStep}
    (hsteps : List.Forall₂ (HostStep.Fits (Move.Paired pairing)) steps steps')
    (h : p.Paired pairing q) :
    (q.proceed steps').answers = (p.proceed steps).answers ∧
      (q.proceed steps').taken = (p.proceed steps).taken ∧
      (p.proceed steps).play.Paired pairing (q.proceed steps').play := by
  obtain ⟨hanswers, hrest⟩ := h.compares sound.fair hsteps
  exact ⟨Answer.eq_of_compares hanswers, hrest⟩

end Play.Paired

end Narrative
