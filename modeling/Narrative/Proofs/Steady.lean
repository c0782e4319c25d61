import Narrative.Engine

set_option autoImplicit false

/-!
# What every run leaves as it was

Whatever an engine does between a call and its return, the depth and the list of events
in flight are afterwards what they were before, the tokens handed out keep what was
agreed about them, a token that was used up stays used up, and the trace only grows
(`Steady`). Each operation on the world is steady, and so is a call to a receiver if
the resumptions inside it are.
-/

namespace Narrative

/-! ## Lists, traces and journals -/

/-- To change one element of a list cannot be told from what the change leaves as it was. -/
theorem map_modify_of_eq {α β : Type} {f : α → β} {g : α → α} (h : ∀ x, f (g x) = f x)
    (l : List α) (i : Nat) : (l.modify i g).map f = l.map f := by
  induction l generalizing i with
  | nil => simp
  | cons x rest ih =>
      cases i with
      | zero => simp [h]
      | succ i => simp [ih]

/-- An element of a list is found where what stands before it ends. -/
theorem modify_append_cons {α : Type} (f : α → α) (before after : List α) (x : α) :
    (before ++ x :: after).modify before.length f = before ++ f x :: after := by
  induction before with
  | nil => simp
  | cons y rest ih => simpa using ih

/-- What is added to a list leaves the change of an element before it alone. -/
theorem modify_append_of_lt {α : Type} (f : α → α) {l : List α} {i : Nat} (h : i < l.length)
    (later : List α) : (l ++ later).modify i f = l.modify i f ++ later := by
  induction l generalizing i with
  | nil => cases h
  | cons x rest ih =>
      cases i with
      | zero => simp
      | succ i => simpa using ih (Nat.lt_of_succ_lt_succ h)

/-- What holds of a moment and of all moments before it, each with what happened before, holds
along the whole trace. -/
theorem forall_suffix_cons {P : Moment → List Moment → Prop} {x : Moment} {trace : List Moment}
    (hx : P x trace) (htrace : ∀ m older, m :: older <:+ trace → P m older) :
    ∀ m older, m :: older <:+ x :: trace → P m older := by
  intro m older hm
  rcases List.suffix_cons_iff.1 hm with heq | hm
  · obtain ⟨rfl, rfl⟩ := List.cons.inj heq
    exact hx
  · exact htrace m older hm

/-- What holds of the moments of two stretches of a trace, each with what happened before, holds of
the two together. -/
theorem forall_suffix_append {P : Moment → List Moment → Prop} {new base : List Moment}
    (hnew : ∀ m older, m :: older <:+ new → P m (older ++ base))
    (hbase : ∀ m older, m :: older <:+ base → P m older) :
    ∀ m older, m :: older <:+ new ++ base → P m older := by
  induction new with
  | nil => exact hbase
  | cons x rest ih =>
      have hrest : ∀ m older, m :: older <:+ rest → P m (older ++ base) :=
        fun m older hm => hnew m older (hm.trans (List.suffix_cons x rest))
      exact forall_suffix_cons (hnew x rest List.suffix_rfl) (ih hrest)

/-- Writing into the journal changes nothing else. -/
theorem World.exists_log (w : World) (wiring : Wiring) (entry : Entry) :
    ∃ journal, w.log wiring entry = { w with journal := journal } := by
  rw [World.log]
  split
  · exact ⟨w.journal ++ [entry], rfl⟩
  · exact ⟨w.journal, rfl⟩

/-- To ask for a scene is to hand out its token and to call for it. -/
theorem World.exists_ask (w : World) (wiring : Wiring) (request : SceneRequest)
    (answer : Playback) (sequel : Option Sequel) :
    ∃ journal, w.ask wiring request answer sequel =
      { (w.hand request answer sequel).note (.called (.scene request answer)) with
        journal := journal } :=
  World.exists_log _ wiring _

/-- Filling in an answer changes nothing but the journal. -/
theorem World.exists_fillIn (w : World) (wiring : Wiring) (place : Nat) (kind : SceneKind)
    (answer : Playback) :
    ∃ journal, w.fillIn wiring place kind answer = { w with journal := journal } := by
  rw [World.fillIn]
  split
  · exact ⟨_, rfl⟩
  · exact ⟨w.journal, rfl⟩

/-! ## Resumptions -/

/-- What an attempt to resume a token comes to. -/
inductive World.Resumes (follow : Sequel → Option (World → World)) (token : Nat) (w : World) :
    World → Prop where
  | unknown (h : w.tokens[token]? = none) : Resumes follow token w w
  | lapsed {t : SceneToken} (ht : w.tokens[token]? = some t) (hp : t.status = .pending)
      (h : ∀ q, t.sequel = some q → follow q = none) : Resumes follow token w (w.lapse token)
  | continued {t : SceneToken} {q : Sequel} {run : World → World}
      (ht : w.tokens[token]? = some t) (hp : t.status = .pending) (hq : t.sequel = some q)
      (hrun : follow q = some run) : Resumes follow token w (run (w.redeem token))
  | ignored {t : SceneToken} (ht : w.tokens[token]? = some t) (hp : t.status ≠ .pending) :
      Resumes follow token w (w.note (.resumed token .ignored))

theorem World.resumes (follow : Sequel → Option (World → World)) (token : Nat) (w : World) :
    w.Resumes follow token (w.resume follow token) := by
  unfold World.resume
  cases ht : w.tokens[token]? with
  | none => exact .unknown ht
  | some t =>
      simp only
      split
      · next hp =>
          cases hq : t.sequel.bind follow with
          | none =>
              refine .lapsed ht hp fun q hsequel => ?_
              rwa [hsequel, Option.bind_some] at hq
          | some run =>
              obtain ⟨q, hsequel, hfollow⟩ := Option.bind_eq_some_iff.1 hq
              exact .continued ht hp hsequel hfollow
      · next hp => exact .ignored ht hp

/-- An engine runs its own sequels, and no others. -/
theorem Engine.follow_eq_some_iff {e : Engine} {wiring : Wiring} {reach : Reach} {q : Sequel}
    {run : World → World} : e.follow wiring reach q = some run ↔
      q.engine = e.serial ∧ e.continueWith wiring reach q.actions = run := by
  rw [Engine.follow]
  split
  · next h => simp only [Option.some.injEq, h, true_and]
  · next h => simp only [reduceCtorEq, h, false_and]

/-! ## The depth -/

/-- Below a limit it can be counted up. -/
theorem toNat_succ_depth {limit depth : UInt32} (h : ¬ limit ≤ depth) :
    (depth + 1).toNat = depth.toNat + 1 := by
  rw [UInt32.le_iff_toNat_le, Nat.not_le] at h
  have hsize : limit.toNat < UInt32.size := UInt32.toNat_lt _
  rw [UInt32.toNat_add, UInt32.toNat_one]
  exact Nat.mod_eq_of_lt (by unfold UInt32.size at hsize; omega)

/-! ## Worlds that follow one another -/

/-- A later record of a token: what was agreed stays, and a used token stays as it is. -/
structure SceneToken.Settles (t t' : SceneToken) : Prop where
  request : t'.request = t.request
  answer : t'.answer = t.answer
  sequel : t'.sequel = t.sequel
  status : t.status ≠ .pending → t'.status = t.status

theorem SceneToken.Settles.refl (t : SceneToken) : t.Settles t := ⟨rfl, rfl, rfl, fun _ => rfl⟩

theorem SceneToken.Settles.trans {t t' t'' : SceneToken} (h : t.Settles t') (h' : t'.Settles t'') :
    t.Settles t'' where
  request := h'.request.trans h.request
  answer := h'.answer.trans h.answer
  sequel := h'.sequel.trans h.sequel
  status hs := by
    have hs' := h.status hs
    exact (h'.status (hs' ▸ hs)).trans hs'

/-- One world comes after another in the course of a run. -/
structure Steady (u v : World) : Prop where
  depth : v.depth = u.depth
  inFlight : v.inFlight = u.inFlight
  tokens : ∀ {i : Nat} {t : SceneToken}, u.tokens[i]? = some t →
    ∃ t', v.tokens[i]? = some t' ∧ t.Settles t'
  trace : u.trace <:+ v.trace

namespace Steady

variable {u v w : World} {wiring : Wiring}

theorem refl (w : World) : Steady w w :=
  ⟨rfl, rfl, fun h => ⟨_, h, .refl _⟩, List.suffix_rfl⟩

theorem trans (h : Steady u v) (h' : Steady v w) : Steady u w where
  depth := h'.depth.trans h.depth
  inFlight := h'.inFlight.trans h.inFlight
  tokens ht := by
    obtain ⟨t', ht', hs⟩ := h.tokens ht
    obtain ⟨t'', ht'', hs'⟩ := h'.tokens ht'
    exact ⟨t'', ht'', hs.trans hs'⟩
  trace := h.trace.trans h'.trace

/-! ## Operations on the world -/

theorem count (w : World) (f : Counters → Counters) : Steady w (w.count f) :=
  ⟨rfl, rfl, fun h => ⟨_, h, .refl _⟩, List.suffix_rfl⟩

theorem note (w : World) (h : Happening) : Steady w (w.note h) :=
  ⟨rfl, rfl, fun h => ⟨_, h, .refl _⟩, List.suffix_cons _ _⟩

theorem changeGame (w : World) (f : Game → Game) : Steady w (w.changeGame f) :=
  ⟨rfl, rfl, fun h => ⟨_, h, .refl _⟩, List.suffix_rfl⟩

theorem write (w : World) (journal : List Entry) : Steady w { w with journal := journal } :=
  ⟨rfl, rfl, fun h => ⟨_, h, .refl _⟩, List.suffix_rfl⟩

theorem log (w : World) (wiring : Wiring) (entry : Entry) : Steady w (w.log wiring entry) := by
  obtain ⟨journal, hlog⟩ := w.exists_log wiring entry
  rw [hlog]
  exact write w journal

theorem fillIn (w : World) (wiring : Wiring) (place : Nat) (kind : SceneKind)
    (answer : Playback) : Steady w (w.fillIn wiring place kind answer) := by
  obtain ⟨journal, hfill⟩ := w.exists_fillIn wiring place kind answer
  rw [hfill]
  exact write w journal

theorem hand (w : World) (request : SceneRequest) (answer : Playback) (sequel : Option Sequel) :
    Steady w (w.hand request answer sequel) where
  depth := rfl
  inFlight := rfl
  tokens {i t} h := by
    have hi : i < w.tokens.length := (List.getElem?_eq_some_iff.1 h).1
    exact ⟨t, (List.getElem?_append_left hi).trans h, .refl t⟩
  trace := List.suffix_rfl

theorem spend {token : Nat} {t : SceneToken} (ht : w.tokens[token]? = some t)
    (hp : t.status = .pending) (status : TokenStatus) : Steady w (w.spend token status) where
  depth := rfl
  inFlight := rfl
  tokens {i t'} h := by
    simp only [World.spend, List.getElem?_modify, h]
    -- only the spent token changes, and it was pending
    by_cases hi : token = i
    · subst hi
      rw [ht, Option.some.injEq] at h
      subst h
      exact ⟨{ t with status }, by simp, rfl, rfl, rfl, fun hs => absurd hp hs⟩
    · exact ⟨t', by simp [hi], .refl t'⟩
  trace := List.suffix_rfl

theorem redeem {token : Nat} {t : SceneToken} (ht : w.tokens[token]? = some t)
    (hp : t.status = .pending) : Steady w (w.redeem token) :=
  ((spend ht hp .resumed).trans (note _ _)).trans (count _ _)

theorem lapse {token : Nat} {t : SceneToken} (ht : w.tokens[token]? = some t)
    (hp : t.status = .pending) : Steady w (w.lapse token) :=
  (spend ht hp .lapsed).trans (note _ _)

/-- Resuming a token is steady if the runs of sequels are. -/
theorem resume {follow : Sequel → Option (World → World)}
    (hrun : ∀ {q run}, follow q = some run → ∀ w, Steady w (run w)) (token : Nat) (w : World) :
    Steady w (w.resume follow token) := by
  have hresumes := w.resumes follow token
  generalize w.resume follow token = v at hresumes ⊢
  cases hresumes with
  | unknown => exact .refl w
  | lapsed ht hp => exact .lapse ht hp
  | continued ht hp _ hfollow => exact (redeem ht hp).trans (hrun hfollow _)
  | ignored => exact .note w _

/-- The token of a scene keeps what was agreed about it. -/
theorem handed {request : SceneRequest} {answer : Playback} {sequel : Option Sequel}
    (h : Steady (w.hand request answer sequel) v) :
    ∃ t, v.tokens[w.tokens.length]? = some t ∧ t.request = request ∧ t.answer = answer ∧
      t.sequel = sequel := by
  obtain ⟨t, ht, hs⟩ := h.tokens (List.getElem?_concat_length (l := w.tokens))
  exact ⟨t, ht, hs.request, hs.answer, hs.sequel⟩

/-- After an attempt to resume a token it is used up. -/
theorem spent {follow : Sequel → Option (World → World)}
    (hrun : ∀ {q run}, follow q = some run → ∀ w, Steady w (run w)) {token : Nat} {t : SceneToken}
    (ht : (w.resume follow token).tokens[token]? = some t) : t.status ≠ .pending := by
  have hspend : ∀ {t₀ : SceneToken} (status : TokenStatus), w.tokens[token]? = some t₀ →
      (w.spend token status).tokens[token]? = some { t₀ with status } := by
    intro t₀ status h
    simp [World.spend, h]
  have hresumes := w.resumes follow token
  generalize w.resume follow token = v at hresumes ht
  cases hresumes with
  | unknown h =>
      rw [h] at ht
      cases ht
  | lapsed h =>
      have hused := (hspend .lapsed h).symm.trans ht
      obtain rfl := Option.some.inj hused
      exact fun hstatus => TokenStatus.noConfusion hstatus
  | continued h _ _ hfollow =>
      -- the sequel runs on a token that is used up, and such a token stays as it is
      obtain ⟨t', ht', hs⟩ := (hrun hfollow (w.redeem token)).tokens (hspend .resumed h)
      obtain rfl := Option.some.inj (ht'.symm.trans ht)
      rw [hs.status fun hstatus => TokenStatus.noConfusion hstatus]
      exact fun hstatus => TokenStatus.noConfusion hstatus
  | ignored h hp =>
      obtain rfl := Option.some.inj (h.symm.trans ht)
      exact hp

theorem park (w : World) (token : Nat) : Steady w { w with queue := w.queue ++ [token] } :=
  ⟨rfl, rfl, fun h => ⟨_, h, .refl _⟩, List.suffix_rfl⟩

theorem keep (w : World) (token : Nat) : Steady w { w with kept := w.kept ++ [token] } :=
  ⟨rfl, rfl, fun h => ⟨_, h, .refl _⟩, List.suffix_rfl⟩

/-! ## Calls to a receiver -/

section Calls

variable {revive : Nat → World → World} (hrevive : ∀ t w, Steady w (revive t w))

include hrevive

theorem carry (a : Act) (w : World) : Steady w (a.carry revive w) := by
  cases a with
  | change f => exact changeGame w f
  | park token => exact park w token
  | keep token => exact keep w token
  | resume token => exact hrevive token w

theorem carryOut (acts : List Act) (w : World) : Steady w (w.carryOut revive acts) := by
  induction acts generalizing w with
  | nil => exact .refl w
  | cons a rest ih => exact (carry hrevive a w).trans (ih _)

theorem perform (e : Effect) (w : World) : Steady w (w.perform wiring revive e).2 := by
  -- a taking is written down after what is done about it, everything else before
  have hafter := fun entry acts =>
    ((note w (.called entry)).trans (carryOut hrevive acts _)).trans (log _ wiring entry)
  have hbefore := fun entry acts =>
    ((note w (.called entry)).trans (log _ wiring entry)).trans (carryOut hrevive acts _)
  cases e <;> first | exact hafter _ _ | exact hbefore _ _

theorem performAll (effects : List Effect) (w : World) :
    Steady w (w.performAll wiring revive effects).2 := by
  induction effects generalizing w with
  | nil => exact .refl w
  | cons e rest ih => exact (perform hrevive e w).trans (ih _)

/-- A scene, from the moment it is asked for. -/
theorem called_playScene {own : World → World} (hown : ∀ w, Steady w (own w))
    (request : SceneRequest) (sequel : Option Sequel) (w : World) :
    Steady ((w.hand request (wiring.receiver.answer w request) sequel).note
        (.called (.scene request (wiring.receiver.answer w request))))
      (w.playScene wiring revive request sequel own).2 := by
  refine ((log _ wiring _).trans (carryOut (fun t w => ?_) _ _)).trans (fillIn _ _ _ _ _)
  split
  · exact hown w
  · exact hrevive t w

/-- A scene, from the moment its token is handed out. -/
theorem handed_playScene {own : World → World} (hown : ∀ w, Steady w (own w))
    (request : SceneRequest) (sequel : Option Sequel) (w : World) :
    Steady (w.hand request (wiring.receiver.answer w request) sequel)
      (w.playScene wiring revive request sequel own).2 :=
  (note _ _).trans (called_playScene hrevive hown request sequel w)

theorem playScene {own : World → World} (hown : ∀ w, Steady w (own w)) (request : SceneRequest)
    (sequel : Option Sequel) (w : World) :
    Steady w (w.playScene wiring revive request sequel own).2 :=
  (hand w request _ sequel).trans (handed_playScene hrevive hown request sequel w)

/-- A scene with a sequel, from the moment it is asked for. -/
theorem called_runScene {run : World → World} (hrun : ∀ w, Steady w (run w))
    (request : SceneRequest) (sequel : Sequel) (w : World) :
    Steady ((w.hand request (wiring.receiver.answer w request) (some sequel)).note
        (.called (.scene request (wiring.receiver.answer w request))))
      (w.runScene wiring revive request sequel run) := by
  have hown : ∀ v, Steady v (v.resume (fun _ => some run) w.tokens.length) :=
    resume (fun h w => Option.some.inj h ▸ hrun w) _
  have hplay : Steady _ (w.playScene wiring revive request (some sequel) _).2 :=
    called_playScene hrevive hown request (some sequel) w
  unfold World.runScene
  simp only
  split
  · exact (hplay.trans (hown _)).trans (note _ _)
  · exact hplay.trans (note _ _)

theorem runScene {run : World → World} (hrun : ∀ w, Steady w (run w)) (request : SceneRequest)
    (sequel : Sequel) (w : World) :
    Steady w (w.runScene wiring revive request sequel run) :=
  ((hand w request _ (some sequel)).trans (note _ _)).trans
    (called_runScene hrevive hrun request sequel w)

theorem announce (event : Event) (w : World) :
    Steady w (Engine.announce wiring revive event w) := by
  unfold Engine.announce
  simp only
  split
  · exact ((changeGame w _).trans (perform hrevive _ _)).trans (count _ _)
  · exact (changeGame w _).trans (count _ _)

end Calls

/-! ## Guards -/

/-- A candidate that was executed is out of flight again. -/
theorem land {c : Candidate} (h : Steady (Engine.begin c w) v) : Steady w (v.land c.position) where
  depth := h.depth
  inFlight := by
    show v.inFlight.erase c.position = w.inFlight
    rw [h.inFlight]
    exact List.erase_cons_head _ _
  tokens := h.tokens
  trace := (List.suffix_cons _ _).trans h.trace

/-- A dispatch that was let in is closed again. -/
theorem leave {limit : UInt32} (hlimit : ¬ limit ≤ w.depth) (h : Steady (Engine.openDispatch w) v) :
    Steady w v.leave where
  depth := by
    have hd : v.depth = w.depth + 1 := h.depth
    have hnext := toNat_succ_depth hlimit
    show (if v.depth = 0 then 0 else v.depth - 1) = w.depth
    rw [hd, if_neg]
    · simp
    · intro h0
      rw [h0, UInt32.toNat_zero] at hnext
      omega
  inFlight := h.inFlight
  tokens := h.tokens
  trace := (List.suffix_cons _ _).trans h.trace

theorem refuseDispatch (w : World) : Steady w (Engine.refuseDispatch w) :=
  (note w _).trans (count _ _)

end Steady

end Narrative
