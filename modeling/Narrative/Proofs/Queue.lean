import Narrative.Proofs.Continuation
import Narrative.Proofs.Journal

set_option autoImplicit false

/-!
# Scenes that wait

A session that parks its scenes finishes them in the order in which they were asked for: those that
were finished, followed by those that wait, are the scenes that were asked for
(`scenes_finish_in_order`). A scene is numbered when it is asked for, and a run of the engine
only adds numbers to the end of the queue (`Parks`), no matter how deep inside the finishing of
another scene it happens. So between moves the queue holds the numbers from the first unfinished
scene on, and their tokens are unused (`World.Queued`).

A session that finishes its scenes at once has none waiting, and has gone on after each
(`Inline`).
-/

namespace Narrative

/-! ## Scenes on the two screens of a session -/

/-- Asks for a scene, and parks it. -/
def World.park (w : World) (wiring : Wiring) (request : SceneRequest) (sequel : Option Sequel) :
    World :=
  let asked := w.ask wiring request .started sequel
  World.fillIn { asked with queue := asked.queue ++ [w.tokens.length] } wiring w.journal.length
    request.kind .started

/-- Asks for a scene that is over at once, and uses up its token. -/
def World.flash (w : World) (wiring : Wiring) (request : SceneRequest) (sequel : Sequel) : World :=
  ((w.ask wiring request .started (some sequel)).changeGame
    (·.seeTutorial request.tutorial?)).redeem w.tokens.length

section Screens

variable {wiring : Wiring}

/-- A parked scene is handed out and called for; nothing follows it as yet. -/
theorem World.exists_park (w : World) (wiring : Wiring) (request : SceneRequest)
    (sequel : Option Sequel) :
    ∃ journal, w.park wiring request sequel =
      { (w.hand request .started sequel).note (.called (.scene request .started)) with
        queue := w.queue ++ [w.tokens.length], journal := journal } := by
  obtain ⟨journal, hask⟩ := w.exists_ask wiring request .started sequel
  rw [World.park, hask]
  obtain ⟨journal', hfill⟩ := World.exists_fillIn _ wiring w.journal.length request.kind .started
  exact ⟨journal', hfill⟩

theorem World.playScene_park (hsession : wiring.receiver = .session .park)
    (revive : Nat → World → World) (request : SceneRequest) (sequel : Option Sequel)
    (own : World → World) (w : World) :
    w.playScene wiring revive request sequel own = (.started, w.park wiring request sequel) := by
  unfold World.playScene
  rw [hsession]
  rfl

theorem World.runScene_park (hsession : wiring.receiver = .session .park)
    (revive : Nat → World → World) (request : SceneRequest) (sequel : Sequel)
    (run : World → World) (w : World) :
    w.runScene wiring revive request sequel run =
      (w.park wiring request (some sequel)).note (.returned w.tokens.length) := by
  unfold World.runScene
  simp only [World.playScene_park hsession]

theorem World.runScene_finishAtOnce (hsession : wiring.receiver = .session .finishAtOnce)
    (revive : Nat → World → World) (request : SceneRequest) (sequel : Sequel)
    (run : World → World) (w : World) :
    w.runScene wiring revive request sequel run =
      ((run (w.flash wiring request sequel)).fillIn wiring w.journal.length request.kind
        .started).note (.returned w.tokens.length) := by
  obtain ⟨journal, hask⟩ := w.exists_ask wiring request .started (some sequel)
  -- the token is new, so its first resumption runs what follows the scene
  have hresume : ((w.ask wiring request .started (some sequel)).changeGame
      (·.seeTutorial request.tutorial?)).resume (fun _ => some run) w.tokens.length =
        run (w.flash wiring request sequel) := by
    have htoken : ((w.ask wiring request .started (some sequel)).changeGame
        (·.seeTutorial request.tutorial?)).tokens[w.tokens.length]? =
          some { request, answer := .started, sequel := some sequel } := by
      rw [hask]
      exact List.getElem?_concat_length
    rw [World.resume, htoken]
    rfl
  have hplay : w.playScene wiring revive request (some sequel)
      (World.resume (fun _ => some run) w.tokens.length) =
        (.started, (run (w.flash wiring request sequel)).fillIn wiring w.journal.length
          request.kind .started) := by
    rw [← hresume]
    unfold World.playScene
    rw [hsession]
    simp only [Receiver.session, Screen.answer, Screen.acts, World.carryOut, List.foldl_cons,
      List.foldl_nil, Act.carry, if_true]
  unfold World.runScene
  simp only [hplay]

end Screens

/-! ## What an engine adds to the queue -/

/-- Between two worlds scenes were asked for and parked, whose tokens have a property, and none was
finished. -/
structure Parks (P : SceneToken → Prop) (u v : World) : Prop where
  tokens : ∃ fresh, v.tokens = u.tokens ++ fresh ∧
    v.queue = u.queue ++ List.range' u.tokens.length fresh.length ∧ ∀ t ∈ fresh, P t
  kept : v.kept = u.kept
  resumed : v.counters.continuationsResumed = u.counters.continuationsResumed

/-- A token that waits for its scene to be over, to go on with an engine then. -/
structure SceneToken.Waits (serial : Nat) (t : SceneToken) : Prop where
  pending : t.status = .pending
  owned : ∃ q, t.sequel = some q ∧ q.engine = serial

namespace Parks

variable {P : SceneToken → Prop} {u v w : World} {wiring : Wiring}

theorem same (htokens : v.tokens = u.tokens) (hqueue : v.queue = u.queue) (hkept : v.kept = u.kept)
    (hresumed : v.counters.continuationsResumed = u.counters.continuationsResumed) :
    Parks P u v :=
  ⟨⟨[], by simp [htokens], by simp [hqueue], List.forall_mem_nil _⟩, hkept, hresumed⟩

theorem trans (h : Parks P u v) (h' : Parks P v w) : Parks P u w := by
  obtain ⟨⟨fresh, htokens, hqueue, hfresh⟩, hkept, hresumed⟩ := h
  obtain ⟨⟨fresh', htokens', hqueue', hfresh'⟩, hkept', hresumed'⟩ := h'
  refine ⟨⟨fresh ++ fresh', ?_, ?_, fun t ht => ?_⟩, hkept'.trans hkept, hresumed'.trans hresumed⟩
  · rw [htokens', htokens, List.append_assoc]
  · rw [hqueue', hqueue, htokens, List.append_assoc, List.length_append, List.length_append,
      List.range'_append_1]
  · exact (List.mem_append.1 ht).elim (hfresh t) (hfresh' t)

/-- A scene is parked. -/
theorem park (w : World) (wiring : Wiring) (request : SceneRequest) {sequel : Option Sequel}
    (hP : P { request, answer := .started, sequel }) :
    Parks P w (w.park wiring request sequel) := by
  obtain ⟨journal, hpark⟩ := w.exists_park wiring request sequel
  rw [hpark]
  refine ⟨⟨[{ request, answer := .started, sequel }], rfl, rfl, fun t ht => ?_⟩, rfl, rfl⟩
  rwa [List.mem_singleton.1 ht]

/-- An effect parks nothing. -/
theorem settle (w : World) (wiring : Wiring) (x : Effect) : Parks P w (w.settle wiring x) := by
  obtain ⟨journal, hsettle⟩ := w.exists_settle wiring x
  rw [hsettle]
  exact same rfl rfl rfl rfl

/-- **Whatever an engine does, it only adds scenes to the queue.** -/
theorem law (hsession : wiring.receiver = .session .park) (e : Engine) :
    SessionLaw e wiring (Parks (·.Waits e.serial)) where
  trans := trans
  counted w _ hf := same rfl rfl rfl (hf w.counters)
  guarded _ _ _ := same rfl rfl rfl rfl
  noted _ _ _ _ := same rfl rfl rfl rfl
  recorded _ _ := same rfl rfl rfl rfl
  called w _ _ := World.settleAll_of (fun _ => same rfl rfl rfl rfl) trans
    (fun x _ w => settle w wiring x) w
  scene revive request sequel hengine run _ w := by
    rw [World.runScene_park hsession]
    have hpark : Parks (·.Waits e.serial) w (w.park wiring request (some sequel)) :=
      park w wiring request ⟨rfl, sequel, rfl, hengine⟩
    exact hpark.trans (same rfl rfl rfl rfl)

end Parks

/-- Between two worlds as many scenes have been gone on after as were asked for, and none was left
to wait. -/
structure Inline (u v : World) : Prop where
  queue : v.queue = u.queue
  kept : v.kept = u.kept
  resumed : v.counters.continuationsResumed + u.tokens.length =
    u.counters.continuationsResumed + v.tokens.length

namespace Inline

variable {u v w : World} {wiring : Wiring}

theorem same (htokens : v.tokens = u.tokens) (hqueue : v.queue = u.queue) (hkept : v.kept = u.kept)
    (hresumed : v.counters.continuationsResumed = u.counters.continuationsResumed) :
    Inline u v :=
  ⟨hqueue, hkept, by rw [htokens, hresumed]⟩

theorem trans (h : Inline u v) (h' : Inline v w) : Inline u w := by
  refine ⟨h'.queue.trans h.queue, h'.kept.trans h.kept, ?_⟩
  have hresumed := h.resumed
  have hresumed' := h'.resumed
  omega

/-- One more scene is asked for, and one more has been gone on after. -/
theorem flash (w : World) (wiring : Wiring) (request : SceneRequest) (sequel : Sequel) :
    Inline w (w.flash wiring request sequel) := by
  obtain ⟨journal, hask⟩ := w.exists_ask wiring request .started (some sequel)
  rw [World.flash, hask]
  refine ⟨rfl, rfl, ?_⟩
  simp only [World.redeem, World.count, World.note, World.spend, World.changeGame, World.hand,
    List.length_modify, List.length_append, List.length_singleton]
  omega

/-- An effect asks for no scene. -/
theorem settle (w : World) (wiring : Wiring) (x : Effect) : Inline w (w.settle wiring x) := by
  obtain ⟨journal, hsettle⟩ := w.exists_settle wiring x
  rw [hsettle]
  exact same rfl rfl rfl rfl

/-- **What follows a scene runs at once.** -/
theorem law (hsession : wiring.receiver = .session .finishAtOnce) (e : Engine) :
    SessionLaw e wiring Inline where
  trans := trans
  counted w _ hf := same rfl rfl rfl (hf w.counters)
  guarded _ _ _ := same rfl rfl rfl rfl
  noted _ _ _ _ := same rfl rfl rfl rfl
  recorded _ _ := same rfl rfl rfl rfl
  called w _ _ := World.settleAll_of (fun _ => same rfl rfl rfl rfl) trans
    (fun x _ w => settle w wiring x) w
  scene revive request sequel _ run hrun w := by
    rw [World.runScene_finishAtOnce hsession]
    have hran := (flash w wiring request sequel).trans (hrun (w.flash wiring request sequel))
    obtain ⟨journal, hfill⟩ := World.exists_fillIn (run (w.flash wiring request sequel)) wiring
      w.journal.length request.kind .started
    rw [hfill]
    exact hran.trans (same rfl rfl rfl rfl)

end Inline

/-! ## The queue between moves -/

/-- What the host is told of a scene that it finishes. -/
def SceneRequest.title (request : SceneRequest) : SceneKind × String :=
  (request.kind, request.label)

/-- The scenes with the titles `done` are finished, and all others wait: their numbers are in the
queue, in order, and their tokens are unused. As long as an engine is alive that has asked for all
of them, which is known if the host is `strict`, it has gone on after each that is finished. -/
structure World.Queued (alive : Option Nat) (strict : Prop) (done : List (SceneKind × String))
    (w : World) : Prop where
  kept : w.kept = []
  queue : w.queue = List.range' done.length (w.tokens.length - done.length)
  titles : done <+: w.tokens.map (·.request.title)
  pending : ∀ {i : Nat} {t : SceneToken}, done.length ≤ i → w.tokens[i]? = some t →
    t.status = .pending
  owned : strict → ∀ serial, alive = some serial → ∀ t ∈ w.tokens,
    ∃ q, t.sequel = some q ∧ q.engine = serial
  resumed : strict → alive ≠ none → w.counters.continuationsResumed = done.length

/-- A list that continues another one continues it by the element that comes next. -/
theorem concat_prefix {α : Type} {l l' : List α} {x : α} (h : l <+: l')
    (hx : l'[l.length]? = some x) : l ++ [x] <+: l' := by
  obtain ⟨rest, rfl⟩ := h
  cases rest with
  | nil => simp at hx
  | cons y rest =>
      obtain rfl : y = x := by simpa using hx
      exact ⟨rest, by simp⟩

/-- The end of a list is what is read at its last places. -/
theorem filterMap_getElem_range {α : Type} (before after : List α) :
    (List.range' before.length after.length).filterMap (fun i => (before ++ after)[i]?) =
      after := by
  induction after generalizing before with
  | nil => rfl
  | cons x rest ih =>
      have hrest := ih (before ++ [x])
      rw [List.append_assoc, List.singleton_append, List.length_append] at hrest
      rw [List.length_cons, List.range'_succ, List.filterMap_cons_some (b := x) (by simp)]
      exact congrArg (x :: ·) hrest

namespace World.Queued

variable {alive : Option Nat} {strict : Prop} {done : List (SceneKind × String)} {u v w : World}

theorem length_le (h : w.Queued alive strict done) : done.length ≤ w.tokens.length := by
  simpa using h.titles.length_le

/-- A change that leaves the scenes alone. -/
theorem same (h : u.Queued alive strict done) (htokens : v.tokens = u.tokens)
    (hqueue : v.queue = u.queue) (hkept : v.kept = u.kept)
    (hresumed : v.counters.continuationsResumed = u.counters.continuationsResumed) :
    v.Queued alive strict done where
  kept := hkept.trans h.kept
  queue := by rw [hqueue, h.queue, htokens]
  titles := htokens ▸ h.titles
  pending hi ht := h.pending hi (htokens ▸ ht)
  owned hstrict serial halive := htokens ▸ h.owned hstrict serial halive
  resumed hstrict halive := hresumed.trans (h.resumed hstrict halive)

/-- An engine is lost, or another one starts, which a strict host does not do. -/
theorem reassign {alive' : Option Nat} (h : u.Queued alive strict done)
    (hlost : strict → alive' = none) (htokens : v.tokens = u.tokens) (hqueue : v.queue = u.queue)
    (hkept : v.kept = u.kept) : v.Queued alive' strict done where
  kept := hkept.trans h.kept
  queue := by rw [hqueue, h.queue, htokens]
  titles := htokens ▸ h.titles
  pending hi ht := h.pending hi (htokens ▸ ht)
  owned hstrict serial halive := by
    rw [hlost hstrict] at halive
    cases halive
  resumed hstrict halive := absurd (hlost hstrict) halive

/-- Scenes that are parked wait at the end of the queue. -/
theorem parks {P : SceneToken → Prop} (h : u.Queued alive strict done) (hparks : Parks P u v)
    (hpending : ∀ t, P t → t.status = .pending)
    (howned : strict → ∀ serial, alive = some serial → ∀ t, P t →
      ∃ q, t.sequel = some q ∧ q.engine = serial) :
    v.Queued alive strict done := by
  obtain ⟨⟨fresh, htokens, hqueue, hfresh⟩, hkept, hresumed⟩ := hparks
  have hle := h.length_le
  constructor
  case kept => exact hkept.trans h.kept
  case queue =>
    have hjoin : List.range' done.length (u.tokens.length - done.length) ++
        List.range' (done.length + (u.tokens.length - done.length)) fresh.length =
          List.range' done.length (u.tokens.length - done.length + fresh.length) :=
      List.range'_append_1
    rw [Nat.add_sub_cancel' hle] at hjoin
    rw [hqueue, h.queue, hjoin, htokens, List.length_append, Nat.sub_add_comm hle]
  case titles =>
    rw [htokens, List.map_append]
    exact h.titles.trans (List.prefix_append _ _)
  case pending =>
    intro i t hi ht
    rw [htokens] at ht
    rcases Nat.lt_or_ge i u.tokens.length with hlt | hge
    · exact h.pending hi (by rwa [List.getElem?_append_left hlt] at ht)
    · rw [List.getElem?_append_right hge] at ht
      exact hpending t (hfresh t (List.mem_of_getElem? ht))
  case owned =>
    intro hstrict serial halive t ht
    rw [htokens] at ht
    rcases List.mem_append.1 ht with hold | hnew
    · exact h.owned hstrict serial halive t hold
    · exact howned hstrict serial halive t (hfresh t hnew)
  case resumed =>
    intro hstrict halive
    exact hresumed.trans (h.resumed hstrict halive)

/-- The oldest scene that waits is the first that is not finished. -/
theorem next (h : w.Queued alive strict done) {token : Nat} {rest : List Nat}
    (hqueue : w.queue = token :: rest) : token = done.length ∧
      rest = List.range' (done.length + 1) (w.tokens.length - (done.length + 1)) ∧
      ∃ t, w.tokens[token]? = some t ∧ t.status = .pending := by
  rw [h.queue] at hqueue
  obtain ⟨n, hn⟩ : ∃ n, w.tokens.length - done.length = n + 1 := by
    cases hlength : w.tokens.length - done.length with
    | zero =>
        rw [hlength] at hqueue
        cases hqueue
    | succ n => exact ⟨n, rfl⟩
  rw [hn, List.range'_succ] at hqueue
  obtain ⟨rfl, rfl⟩ := List.cons.inj hqueue
  have hlt : done.length < w.tokens.length := by omega
  refine ⟨rfl, ?_, w.tokens[done.length], List.getElem?_eq_getElem hlt,
    h.pending (Nat.le_refl _) (List.getElem?_eq_getElem hlt)⟩
  congr 1
  omega

/-- The oldest scene is taken out of the queue, and its token is used up. -/
theorem spend (h : u.Queued alive strict done) {token : Nat} {rest : List Nat} {t : SceneToken}
    (hqueue : u.queue = token :: rest) (ht : u.tokens[token]? = some t) (status : TokenStatus)
    (hv : v.queue = rest) (hkept : v.kept = u.kept)
    (htokens : v.tokens = u.tokens.modify token fun t => { t with status })
    (hresumed : strict → alive ≠ none →
      v.counters.continuationsResumed = u.counters.continuationsResumed + 1) :
    v.Queued alive strict (done ++ [t.request.title]) := by
  obtain ⟨rfl, rfl, -⟩ := h.next hqueue
  have hlength : (done ++ [t.request.title]).length = done.length + 1 := by simp
  have htitles : v.tokens.map (·.request.title) = u.tokens.map (·.request.title) := by
    have htitle : ∀ t : SceneToken, { t with status }.request.title = t.request.title :=
      fun _ => rfl
    rw [htokens]
    exact map_modify_of_eq htitle u.tokens done.length
  constructor
  case kept => exact hkept.trans h.kept
  case queue => rw [hv, hlength, htokens, List.length_modify]
  case titles =>
    rw [htitles]
    refine concat_prefix h.titles ?_
    rw [List.getElem?_map, ht]
    rfl
  case pending =>
    intro i t' hi ht'
    rw [hlength] at hi
    rw [htokens, List.getElem?_modify_ne _ _ (Nat.ne_of_lt hi)] at ht'
    exact h.pending (Nat.le_of_succ_le hi) ht'
  case owned =>
    intro hstrict serial halive t' ht'
    rw [htokens] at ht'
    obtain ⟨i, hi⟩ := List.mem_iff_getElem?.1 ht'
    rw [List.getElem?_modify] at hi
    obtain ⟨t₀, ht₀, rfl⟩ := Option.map_eq_some_iff.1 hi
    obtain ⟨q, hq, hengine⟩ := h.owned hstrict serial halive t₀ (List.mem_of_getElem? ht₀)
    refine ⟨q, ?_, hengine⟩
    split <;> exact hq
  case resumed =>
    intro hstrict halive
    rw [hresumed hstrict halive, h.resumed hstrict halive, hlength]

/-- The titles of the scenes that wait are those that are not finished. -/
theorem titles_waiting (h : w.Queued alive strict done) :
    done ++ w.queue.filterMap (fun token => w.tokens[token]?.map (·.request.title)) =
      w.tokens.map (·.request.title) := by
  obtain ⟨rest, hrest⟩ := h.titles
  have hlength : w.tokens.length - done.length = rest.length := by
    rw [← List.length_map (·.request.title), ← hrest, List.length_append, Nat.add_sub_cancel_left]
  simp only [← List.getElem?_map, h.queue, hlength, ← hrest, filterMap_getElem_range]

end World.Queued

/-! ## Moves of the host -/

/-- The moves that leave the session in charge of its scenes. Of these, a `strict` host asks for no
scene itself and starts no other engine. -/
def Move.LeavesScenes (strict : Prop) : Move → Prop
  | .rewire _ => False
  | .scene _ | .restart .. => ¬ strict
  | _ => True

/-- The title of the scene that was finished. -/
def Answer.finished? : Answer → Option (SceneKind × String)
  | .finished scene => scene
  | _ => none

/-- A play over a session that parks its scenes, of which some are finished and all others wait. -/
structure Play.Queued (strict : Prop) (done : List (SceneKind × String)) (p : Play) : Prop where
  parked : p.wiring.receiver = .session .park
  world : p.world.Queued (p.engine.map (·.serial)) strict done

namespace Play.Queued

variable {strict : Prop} {done : List (SceneKind × String)} {p : Play} {v : World}

/-- At the start no scene was asked for. -/
theorem start (catalog : Catalog) (config : EngineConfig) (journaled : Bool)
    (state : SessionState) :
    (Play.start catalog config ⟨.session .park, journaled⟩ state).Queued strict [] := by
  refine ⟨rfl, ?_⟩
  constructor
  case kept | queue => rfl
  case titles => exact List.nil_prefix
  case pending =>
    intro i t _ ht
    cases ht
  case owned =>
    intro _ serial _ t ht
    cases ht
  case resumed => exact fun _ _ => rfl

/-- What the engine has done has only added scenes to the queue. -/
theorem parks (hparked : p.wiring.receiver = .session .park) {e : Engine}
    (he : p.engine = some e) {u : World} (hu : u.Queued (p.engine.map (·.serial)) strict done)
    (hparks : Parks (·.Waits e.serial) u v) : Play.Queued strict done { p with world := v } := by
  refine ⟨hparked, hu.parks hparks (fun t ht => ht.pending) fun _ serial halive t ht => ?_⟩
  obtain ⟨q, hq, hengine⟩ := ht.owned
  rw [he] at halive
  exact ⟨q, hq, hengine.trans (Option.some.inj halive)⟩

/-- The engine is asked for something, if there is one. -/
theorem withEngine (h : p.Queued strict done) {act : Engine → World → Answer × World}
    (hquiet : ∀ e w, (act e w).1.finished? = none)
    (hact : ∀ e, Parks (·.Waits e.serial) p.world (act e p.world).2) :
    (p.withEngine act).2.Queued strict (done ++ (p.withEngine act).1.finished?.toList) := by
  unfold Play.withEngine
  split
  · next e he =>
      simp only [hquiet, Option.toList_none, List.append_nil]
      exact parks h.parked he h.world (hact e)
  · simpa [Answer.finished?] using h

/-- The oldest scene that waits is finished, and what it leads to waits behind the others. -/
theorem finishScene (h : p.Queued strict done) : Play.Queued strict
    (done ++ p.finishScene.1.toList) { p with world := p.finishScene.2 } := by
  unfold Play.finishScene
  split
  · simpa using h
  next token rest hqueue =>
  obtain ⟨-, -, t, ht, hpending⟩ := h.world.next hqueue
  simp only [ht, Option.toList_some]
  generalize hw : ({ p.world with queue := rest }).changeGame
    (·.seeTutorial t.request.tutorial?) = w
  have htoken : w.tokens[token]? = some t := hw ▸ ht
  have hresumes : w.Resumes p.follow token (p.resume token w) := w.resumes p.follow token
  generalize p.resume token w = v at hresumes ⊢
  cases hresumes with
  | unknown hunknown =>
      rw [htoken] at hunknown
      cases hunknown
  | lapsed ht' _ hnobody =>
      obtain rfl := Option.some.inj (htoken.symm.trans ht')
      subst hw
      refine ⟨h.parked, h.world.spend hqueue ht .lapsed rfl rfl rfl fun hstrict halive => ?_⟩
      -- an engine that is alive would have gone on
      obtain ⟨serial, hserial⟩ := Option.ne_none_iff_exists'.1 halive
      obtain ⟨e, he, rfl⟩ := Option.map_eq_some_iff.1 hserial
      obtain ⟨q, hq, hengine⟩ :=
        h.world.owned hstrict e.serial hserial t (List.mem_of_getElem? ht)
      have hfollow := Play.follow_eq_some_iff.2 ⟨e, he, hengine, rfl⟩
      rw [hnobody q hq] at hfollow
      cases hfollow
  | continued _ _ _ hfollow =>
      obtain ⟨e, he, -, rfl⟩ := Play.follow_eq_some_iff.1 hfollow
      have hredeemed : (w.redeem token).Queued (p.engine.map (·.serial)) strict
          (done ++ [t.request.title]) := by
        subst hw
        exact h.world.spend hqueue ht .resumed rfl rfl rfl fun _ _ => rfl
      exact parks h.parked he hredeemed ((Parks.law h.parked e).continueWith h.parked _ _)
  | ignored ht' hused =>
      obtain rfl := Option.some.inj (htoken.symm.trans ht')
      exact absurd hpending hused

/-- A play that has lost its engine. -/
theorem dropEngine (h : p.Queued strict done) : p.dropEngine.Queued strict done := by
  unfold Play.dropEngine
  split
  · exact ⟨h.parked, h.world.reassign (fun _ => rfl) rfl rfl rfl⟩
  · exact h

theorem restart (h : p.Queued strict done) (hlax : ¬ strict) (catalog : Catalog)
    (config : EngineConfig) : (p.restart catalog config).Queued strict done :=
  ⟨h.dropEngine.parked,
    h.dropEngine.world.reassign (fun hstrict => absurd hstrict hlax) rfl rfl rfl⟩

/-- **Every move keeps the queue in order.** -/
theorem move (h : p.Queued strict done) {m : Move} (hm : m.LeavesScenes strict) :
    (p.move m).2.Queued strict (done ++ (p.move m).1.finished?.toList) := by
  have law := Parks.law h.parked
  -- a change that leaves the scenes alone
  have hsame : ∀ {v : World}, v.tokens = p.world.tokens → v.queue = p.world.queue →
      v.kept = p.world.kept →
      v.counters.continuationsResumed = p.world.counters.continuationsResumed →
      Play.Queued strict (done ++ []) { p with world := v } := by
    intro v htokens hqueue hkept hresumed
    rw [List.append_nil]
    exact ⟨h.parked, h.world.same htokens hqueue hkept hresumed⟩
  cases m with
  | trigger t payload =>
      exact h.withEngine (fun _ _ => rfl) fun e => (law e).handle h.parked t payload p.world
  | occur o =>
      refine h.withEngine (fun _ _ => rfl) fun e => ?_
      have hprepare : Parks (·.Waits e.serial) p.world (o.prepare p.world) := by
        unfold Occurrence.prepare
        split <;> exact .same rfl rfl rfl rfl
      exact hprepare.trans ((law e).handle h.parked _ _ _)
  | perform actions =>
      exact h.withEngine (fun _ _ => rfl) fun e => (law e).execute h.parked actions _ p.world
  | execute actions s =>
      exact h.withEngine (fun _ _ => rfl) fun e => (law e).execute h.parked actions s p.world
  | finishScene => exact h.finishScene
  | resumeKept index =>
      unfold Play.move
      simp only [h.world.kept, List.getElem?_nil]
      exact hsame rfl rfl rfl rfl
  | rewire wiring => exact hm.elim
  | dropEngine =>
      have hanswer : (p.move .dropEngine).1.finished? = none := by
        unfold Play.move
        simp only
        split <;> rfl
      rw [hanswer, Play.move_dropEngine, Option.toList_none, List.append_nil]
      exact h.dropEngine
  | restart catalog config =>
      have hrestarted := h.restart hm catalog config
      rwa [← List.append_nil done] at hrestarted
  | setState | setRoom | markEvent => exact hsame rfl rfl rfl rfl
  | effect x =>
      unfold Play.move
      simp only [World.perform_session h.parked]
      obtain ⟨journal, hsettle⟩ := p.world.exists_settle p.wiring x
      rw [hsettle]
      exact hsame rfl rfl rfl rfl
  | scene request =>
      have hparks : Parks (·.status = .pending) p.world (p.world.park p.wiring request none) :=
        .park p.world p.wiring request rfl
      unfold Play.move Play.playScene
      simp only [World.playScene_park h.parked, Answer.finished?, Option.toList_none,
        List.append_nil]
      exact ⟨h.parked, h.world.parks hparks (fun _ ht => ht) fun hstrict => absurd hstrict hm⟩

/-- Every run keeps the queue in order. -/
theorem proceed {steps : List HostStep} (h : p.Queued strict done)
    (hsteps : ∀ m, .move m ∈ steps → m.LeavesScenes strict) :
    (p.proceed steps).play.Queued strict
      (done ++ (p.proceed steps).answers.filterMap Answer.finished?) := by
  induction steps generalizing p done with
  | nil => simpa [Play.proceed] using h
  | cons step rest ih =>
      have hrest : ∀ m, .move m ∈ rest → m.LeavesScenes strict :=
        fun m hm => hsteps m (List.mem_cons_of_mem step hm)
      cases step with
      | move m =>
          have hnext := ih (h.move (hsteps m List.mem_cons_self)) hrest
          simp only [Play.proceed, List.filterMap_cons]
          cases hfinished : (p.move m).1.finished? <;> simpa [hfinished] using hnext
      | drain =>
          have hdrained : p.drain.2.Queued strict done :=
            ⟨h.parked, h.world.same rfl rfl rfl rfl⟩
          exact ih hdrained hrest

end Play.Queued

/-- A play over a session that finishes its scenes at once: none waits, and the engine has gone on
after each. -/
structure Play.Current (p : Play) : Prop where
  finishing : p.wiring.receiver = .session .finishAtOnce
  queue : p.world.queue = []
  kept : p.world.kept = []
  resumed : p.world.counters.continuationsResumed = p.world.tokens.length

namespace Play.Current

variable {p : Play}

/-- **Every move leaves no scene waiting.** -/
theorem move (h : p.Current) {m : Move} (hm : m.LeavesScenes True) : (p.move m).2.Current := by
  have law := Inline.law h.finishing
  have hengine : ∀ {act : Engine → World → Answer × World},
      (∀ e, Inline p.world (act e p.world).2) → Inline p.world (p.withEngine act).2.world := by
    intro act hact
    unfold Play.withEngine
    split
    · exact hact _
    · exact .same rfl rfl rfl rfl
  have hwired : (p.move m).2.wiring = p.wiring := by
    refine Play.wiring_move fun wiring hrewire => ?_
    rwa [hrewire] at hm
  have hinline : Inline p.world (p.move m).2.world := by
    cases m with
    | trigger t payload => exact hengine fun e => (law e).handle h.finishing t payload p.world
    | occur o =>
        refine hengine fun e => ?_
        have hprepare : Inline p.world (o.prepare p.world) := by
          unfold Occurrence.prepare
          split <;> exact .same rfl rfl rfl rfl
        exact hprepare.trans ((law e).handle h.finishing _ _ _)
    | perform actions => exact hengine fun e => (law e).execute h.finishing actions _ p.world
    | execute actions s => exact hengine fun e => (law e).execute h.finishing actions s p.world
    | finishScene =>
        unfold Play.move Play.finishScene
        simp only [h.queue]
        exact .same rfl rfl rfl rfl
    | resumeKept index =>
        unfold Play.move
        simp only [h.kept, List.getElem?_nil]
        exact .same rfl rfl rfl rfl
    | dropEngine =>
        rw [Play.move_dropEngine]
        unfold Play.dropEngine
        split <;> exact .same rfl rfl rfl rfl
    | setState | setRoom | markEvent => exact .same rfl rfl rfl rfl
    | effect x =>
        unfold Play.move
        simp only [World.perform_session h.finishing]
        exact .settle p.world p.wiring x
    | rewire wiring => exact hm.elim
    | restart | scene => exact absurd trivial hm
  refine ⟨hwired ▸ h.finishing, hinline.queue.trans h.queue, hinline.kept.trans h.kept, ?_⟩
  have hresumed := hinline.resumed
  rw [h.resumed] at hresumed
  omega

/-- Every run leaves no scene waiting. -/
theorem proceed {steps : List HostStep} (h : p.Current)
    (hsteps : ∀ m, .move m ∈ steps → m.LeavesScenes True) : (p.proceed steps).play.Current := by
  induction steps generalizing p with
  | nil => exact h
  | cons step rest ih =>
      have hrest : ∀ m, .move m ∈ rest → m.LeavesScenes True :=
        fun m hm => hsteps m (List.mem_cons_of_mem step hm)
      cases step with
      | move m => exact ih (h.move (hsteps m List.mem_cons_self)) hrest
      | drain => exact ih (p := p.drain.2) ⟨h.finishing, h.queue, h.kept, h.resumed⟩ hrest

end Play.Current

/-- An action with a scene asks for it, and the scene is parked. -/
theorem Action.run_park (e : Engine) {wiring : Wiring}
    (hparked : wiring.receiver = .session .park) (k : Nat) {a : Action} {request : SceneRequest}
    {onComplete : List Action} (ha : a.scene? = some (request, onComplete)) (s : SessionState)
    (u : World) :
    let v := (Action.run e wiring (e.reach wiring k) a s u).2
    scenesIn v.trace = scenesIn u.trace ++ [request] ∧ v.queue = u.queue ++ [u.tokens.length] := by
  have hpark : ∀ sequel : Sequel,
      scenesIn ((u.started.park wiring request (some sequel)).note
          (.returned u.started.tokens.length)).trace = scenesIn u.trace ++ [request] ∧
        ((u.started.park wiring request (some sequel)).note
          (.returned u.started.tokens.length)).queue = u.queue ++ [u.tokens.length] := by
    intro sequel
    obtain ⟨journal, hparked⟩ := u.started.exists_park wiring request (some sequel)
    rw [hparked]
    refine ⟨?_, rfl⟩
    rw [World.note, scenesIn_cons_of_none rfl, World.note, scenesIn_cons_scene]
    rfl
  cases a with
  | playCinematic scene actions =>
      cases scene with
      | none => cases ha
      | some scene =>
          obtain ⟨rfl, rfl⟩ := Prod.mk.inj (Option.some.inj ha)
          rw [Action.run, World.runScene_park hparked]
          exact hpark _
  | systemTutorial scene context actions =>
      obtain ⟨rfl, rfl⟩ := Prod.mk.inj (Option.some.inj ha)
      rw [Action.run, World.runScene_park hparked]
      exact hpark _
  | _ => cases ha

/-- An action that only asks for effects asks for no scene. -/
theorem Action.scenesIn_run_deed (e : Engine) {wiring : Wiring} {screen : Screen}
    (hsession : wiring.receiver = .session screen) (k : Nat) (d : Deed) (s : SessionState)
    (u : World) : scenesIn (Action.run e wiring (e.reach wiring k) (.deed d) s u).2.trace =
      scenesIn u.trace := by
  have hsettle : ∀ (x : Effect) (w : World),
      scenesIn (w.settle wiring x).trace = scenesIn w.trace := by
    intro x w
    rw [World.trace_settle, scenesIn_cons_effect]
  rw [Action.run, World.performAll_session hsession]
  exact World.settleAll_of (P := fun w v => scenesIn v.trace = scenesIn w.trace) (fun _ => rfl)
    (fun h h' => h'.trans h) (fun x _ => hsettle x) u.started

/-- From the start of a play on there is a token for each scene that was asked for. -/
theorem Play.map_request_proceed (catalog : Catalog) (config : EngineConfig) {wiring : Wiring}
    {screen : Screen} (hsession : wiring.receiver = .session screen) (state : SessionState)
    {steps : List HostStep} (hsteps : ∀ wiring, .move (.rewire wiring) ∉ steps) :
    let w := ((Play.start catalog config wiring state).proceed steps).play.world
    w.tokens.map (·.request) = scenesIn w.trace := by
  intro w
  obtain ⟨new, htrace, -, hscenes, -⟩ :=
    Play.exact_proceed (p := Play.start catalog config wiring state) hsteps hsession
  have hnew : w.trace = new := htrace.trans (List.append_nil new)
  rw [hnew]
  exact hscenes

/-- **Scenes are finished in the order in which they were asked for.** Take any run over a session
in which the host asks the engine for things, finishes scenes and reads the journal, in any order.
If the session parks its scenes, the titles of those that were finished, followed by those that
wait, are the titles of all that were asked for, in order; so as many wait as were asked for and
not finished, and as long as the engine is alive it has gone on as often as scenes were finished.
If the session finishes its scenes at once, none waits after any step, and the engine has gone on
once after each. To execute an action with a scene is to ask for the scene, and to park it; a deed
asks for none. -/
theorem scenes_finish_in_order (catalog : Catalog) (config : EngineConfig) (journaled : Bool)
    (state : SessionState) {steps : List HostStep}
    (hsteps : ∀ m, .move m ∈ steps → m.LeavesScenes True) :
    (let r := (Play.start catalog config ⟨.session .park, journaled⟩ state).proceed steps
      let w := r.play.world
      let finished := r.answers.filterMap Answer.finished?
      finished ++ w.queue.filterMap (fun token => w.tokens[token]?.map (·.request.title)) =
          (scenesIn w.trace).map (·.title) ∧
        w.queue.length + finished.length = (scenesIn w.trace).length ∧
        (r.play.engine ≠ none → w.counters.continuationsResumed = finished.length)) ∧
    (let r := (Play.start catalog config ⟨.session .finishAtOnce, journaled⟩ state).proceed steps
      let w := r.play.world
      w.queue = [] ∧ w.counters.continuationsResumed = (scenesIn w.trace).length) ∧
    ∀ (e : Engine) k (a : Action) s (u : World),
      let wiring : Wiring := ⟨.session .park, journaled⟩
      let v := (Action.run e wiring (e.reach wiring k) a s u).2
      (∀ request onComplete, a.scene? = some (request, onComplete) →
        scenesIn v.trace = scenesIn u.trace ++ [request] ∧
          v.queue = u.queue ++ [u.tokens.length]) ∧
      ∀ d, a = .deed d → scenesIn v.trace = scenesIn u.trace := by
  have hrewire : ∀ wiring, .move (.rewire wiring) ∉ steps := fun wiring h => hsteps _ h
  refine ⟨?_, ?_, ?_⟩
  · intro r w finished
    have hqueued : r.play.Queued True finished :=
      (Play.Queued.start catalog config journaled state).proceed hsteps
    have htokens : w.tokens.map (·.request) = scenesIn w.trace :=
      Play.map_request_proceed catalog config rfl state hrewire
    refine ⟨?_, ?_, ?_⟩
    · rw [hqueued.world.titles_waiting, ← htokens, List.map_map]
      rfl
    · have hle := hqueued.world.length_le
      rw [hqueued.world.queue, List.length_range', ← htokens, List.length_map]
      exact Nat.sub_add_cancel hle
    · intro halive
      exact hqueued.world.resumed trivial fun hnone => halive (Option.map_eq_none_iff.1 hnone)
  · intro r w
    have hstart :
        (Play.start catalog config ⟨.session .finishAtOnce, journaled⟩ state).Current :=
      ⟨rfl, rfl, rfl, rfl⟩
    have hcurrent := hstart.proceed hsteps
    have htokens : w.tokens.map (·.request) = scenesIn w.trace :=
      Play.map_request_proceed catalog config rfl state hrewire
    refine ⟨hcurrent.queue, ?_⟩
    rw [← htokens, List.length_map]
    exact hcurrent.resumed
  · intro e k a s u wiring v
    constructor
    · intro request onComplete ha
      exact Action.run_park e rfl k ha s u
    · rintro d rfl
      exact Action.scenesIn_run_deed e rfl k d s u

/-- Two scenes are asked for, and after the first of them a lesson, which waits behind the
second. -/
theorem lesson_waits_behind_the_second :
    let actions : List Action := [.playCinematic (some "arrival")
      [.systemTutorial (some "walking") none []], .playCinematic (some "departure") []]
    let steps : List HostStep := [.move (.perform actions), .move .finishScene, .drain,
      .move .finishScene]
    let r := (Play.start ∅ {} ⟨.session .park, true⟩ {}).proceed steps
    let w := r.play.world
    let finished := r.answers.filterMap Answer.finished?
    (∀ m, .move m ∈ steps → m.LeavesScenes True) ∧
    finished = [(.cinematic, "arrival"), (.cinematic, "departure")] ∧
    finished ++ w.queue.filterMap (fun token => w.tokens[token]?.map (·.request.title)) =
      (scenesIn w.trace).map (·.title) ∧ w.queue.length = 1 := by
  intro actions steps r w finished
  have hsteps : ∀ m, .move m ∈ steps → m.LeavesScenes True := by
    simp [steps, Move.LeavesScenes]
  exact ⟨hsteps, by decide, (scenes_finish_in_order ∅ {} true {} hsteps).1.1, by decide⟩

end Narrative
