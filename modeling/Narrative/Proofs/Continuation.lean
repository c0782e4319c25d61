import Narrative.Proofs.Moves

set_option autoImplicit false

/-!
# What follows a scene runs once

A token carries what follows its scene. Whatever a receiver does with it, and whenever
the host resumes it, the first attempt decides: the sequel runs if its engine has not been
lost, and otherwise the token lapses; every later attempt is ignored (`Due`). A scene
that is declined has had its sequel run by the time its action is over (`Agreed`).

The invariant ties the status of every token to the trace (`SceneToken.Tidy`), and the
engine of every sequel to the engines that are alive or lost.
-/

namespace Narrative

/-! ## Reading a trace -/

/-- Whether somebody tried to resume a token. -/
def Attempted (token : Nat) (trace : List Moment) : Prop :=
  ∃ m ∈ trace, ∃ outcome, m.happening = .resumed token outcome

/-- Whether an engine was lost. -/
def Lost (serial : Nat) (trace : List Moment) : Prop :=
  ∃ m ∈ trace, m.happening = .engineLost serial

/-- Whether the sequel of a token is run. -/
def Happening.continues (token : Nat) : Happening → Bool
  | .resumed t .continued => t == token
  | _ => false

/-- Whether the sequel of any token is run. -/
def Happening.isContinuation : Happening → Bool
  | .resumed _ .continued => true
  | _ => false

/-- How often the sequel of a token was run. -/
def continuations (token : Nat) (trace : List Moment) : Nat :=
  trace.countP (·.happening.continues token)

/-- How many sequels were run. -/
def allContinuations (trace : List Moment) : Nat :=
  trace.countP (·.happening.isContinuation)

/-- Whether a moment concerns neither the resumption of a token nor the loss of an engine. -/
def Happening.isQuiet : Happening → Bool
  | .resumed .. | .engineLost _ => false
  | _ => true

/-- What becomes of an attempt to resume a token, given what happened before it. -/
structure Due (t : SceneToken) (token : Nat) (older : List Moment) (outcome : Resumption) :
    Prop where
  again : Attempted token older → outcome = .ignored
  alive : ¬ Attempted token older → ∀ q, t.sequel = some q → ¬ Lost q.engine older →
    outcome = .continued
  lost : ¬ Attempted token older → ∀ q, t.sequel = some q → Lost q.engine older →
    outcome = .lapsed
  bare : ¬ Attempted token older → t.sequel = none → outcome = .lapsed

/-- What is agreed about the moments of a run, given the tokens and what happened before. -/
def Agreed (tokens : List SceneToken) (older : List Moment) : Happening → Prop
  | .resumed token outcome => ∃ t, tokens[token]? = some t ∧ Due t token older outcome
  | .returned token => ∃ t, tokens[token]? = some t ∧ t.sequel.isSome = true ∧
      (t.answer = .declined → continuations token older = 1)
  | _ => True

section Trace

variable {m : Moment} {trace : List Moment} {token serial : Nat}

theorem attempted_cons : Attempted token (m :: trace) ↔
    (∃ outcome, m.happening = .resumed token outcome) ∨ Attempted token trace := by
  simp only [Attempted, List.mem_cons, exists_eq_or_imp]

theorem lost_cons : Lost serial (m :: trace) ↔
    m.happening = .engineLost serial ∨ Lost serial trace := by
  simp only [Lost, List.mem_cons, exists_eq_or_imp]

theorem attempted_cons_of_quiet {x : Happening} {g : Game} {depth : UInt32}
    (hx : x.isQuiet = true) :
    Attempted token (⟨x, g, depth⟩ :: trace) ↔ Attempted token trace := by
  rw [attempted_cons]
  refine or_iff_right ?_
  rintro ⟨outcome, rfl⟩
  cases hx

theorem lost_cons_of_quiet {x : Happening} {g : Game} {depth : UInt32}
    (hx : x.isQuiet = true) :
    Lost serial (⟨x, g, depth⟩ :: trace) ↔ Lost serial trace := by
  rw [lost_cons]
  refine or_iff_right ?_
  rintro rfl
  cases hx

/-- To resume a token loses no engine. -/
theorem lost_cons_resumed {outcome : Resumption} {g : Game} {depth : UInt32} :
    Lost serial (⟨.resumed token outcome, g, depth⟩ :: trace) ↔ Lost serial trace := by
  rw [lost_cons]
  refine or_iff_right fun h => ?_
  cases h

theorem continuations_cons : continuations token (m :: trace) =
    continuations token trace + if m.happening.continues token then 1 else 0 :=
  List.countP_cons

theorem allContinuations_cons : allContinuations (m :: trace) =
    allContinuations trace + if m.happening.isContinuation then 1 else 0 :=
  List.countP_cons

theorem continues_iff {x : Happening} :
    x.continues token = true ↔ x = .resumed token .continued := by
  unfold Happening.continues
  split
  · next t => simp
  · next hno =>
      constructor
      · intro h
        cases h
      · rintro rfl
        exact absurd rfl (hno token)

/-- A token that nobody tried to resume was not resumed. -/
theorem continuations_eq_zero (h : ¬ Attempted token trace) : continuations token trace = 0 := by
  refine List.countP_eq_zero.2 fun m hm hcontinues => h ⟨m, hm, .continued, ?_⟩
  exact continues_iff.1 hcontinues

/-- What is agreed stays agreed while tokens are handed out and used up. -/
theorem Agreed.later {tokens tokens' : List SceneToken} {x : Happening}
    (h : Agreed tokens trace x)
    (hlater : ∀ {i : Nat} {t : SceneToken}, tokens[i]? = some t →
      ∃ t', tokens'[i]? = some t' ∧ t.Settles t') :
    Agreed tokens' trace x := by
  cases x with
  | resumed token outcome =>
      obtain ⟨t, ht, hdue⟩ := h
      obtain ⟨t', ht', hs⟩ := hlater ht
      refine ⟨t', ht', hdue.again, ?_, ?_, ?_⟩
      · rw [hs.sequel]
        exact hdue.alive
      · rw [hs.sequel]
        exact hdue.lost
      · rw [hs.sequel]
        exact hdue.bare
  | returned token =>
      obtain ⟨t, ht, hsome, hdeclined⟩ := h
      obtain ⟨t', ht', hs⟩ := hlater ht
      refine ⟨t', ht', ?_, ?_⟩
      · rwa [hs.sequel]
      · rwa [hs.answer]
  | _ => trivial

end Trace

/-! ## Tokens and engines -/

/-- What the trace says about a token with a number, and about the engine of its sequel. -/
structure SceneToken.Tidy (t : SceneToken) (alive : Option Nat) (trace : List Moment)
    (token : Nat) : Prop where
  pending : t.status = .pending ↔ ¬ Attempted token trace
  once : continuations token trace = if t.status = .resumed then 1 else 0
  lapsed : t.status = .lapsed → ∀ q, t.sequel = some q → Lost q.engine trace
  engine : ∀ q, t.sequel = some q → alive = some q.engine ∨ Lost q.engine trace

namespace SceneToken.Tidy

variable {t : SceneToken} {alive : Option Nat} {trace : List Moment} {token : Nat} {g : Game}
variable {depth : UInt32}

/-- Moments that concern neither the token nor any engine do not matter to it. -/
theorem congr {trace' : List Moment} (h : t.Tidy alive trace token)
    (hattempt : Attempted token trace' ↔ Attempted token trace)
    (honce : continuations token trace' = continuations token trace)
    (hlost : ∀ serial, Lost serial trace' ↔ Lost serial trace) : t.Tidy alive trace' token where
  pending := by
    rw [hattempt]
    exact h.pending
  once := by
    rw [honce]
    exact h.once
  lapsed hs q hq := (hlost _).2 (h.lapsed hs q hq)
  engine q hq := (h.engine q hq).imp id (hlost _).2

/-- A quiet moment does not matter to a token. -/
theorem quiet {x : Happening} (h : t.Tidy alive trace token) (hx : x.isQuiet = true) :
    t.Tidy alive (⟨x, g, depth⟩ :: trace) token := by
  refine h.congr (attempted_cons_of_quiet hx) ?_ fun _ => lost_cons_of_quiet hx
  have hcontinues : x.continues token = false := by
    refine Bool.eq_false_iff.2 fun hc => ?_
    rw [continues_iff.1 hc] at hx
    cases hx
  rw [continuations_cons, hcontinues]
  rfl

/-- An attempt to resume another token does not matter to a token. -/
theorem other {i : Nat} (h : t.Tidy alive trace i) (hi : i ≠ token) (outcome : Resumption) :
    t.Tidy alive (⟨.resumed token outcome, g, depth⟩ :: trace) i := by
  refine h.congr ?_ ?_ fun _ => lost_cons_resumed
  · rw [attempted_cons]
    refine or_iff_right ?_
    rintro ⟨o, ho⟩
    exact hi (Happening.resumed.inj ho).1.symm
  · have hcontinues : (Happening.resumed token outcome).continues i = false :=
      Bool.eq_false_iff.2 fun hc => hi (Happening.resumed.inj (continues_iff.1 hc)).1.symm
    rw [continuations_cons, hcontinues]
    rfl

/-- The first attempt to resume a token uses it up, one way or the other. -/
theorem first (h : t.Tidy alive trace token) (hp : t.status = .pending) {status : TokenStatus}
    {outcome : Resumption} (hused : status ≠ .pending)
    (hresumed : status = .resumed ↔ outcome = .continued)
    (hlapsed : status = .lapsed → ∀ q, t.sequel = some q → Lost q.engine trace) :
    SceneToken.Tidy { t with status } alive (⟨.resumed token outcome, g, depth⟩ :: trace) token where
  pending := by
    refine iff_of_false hused (not_not_intro ?_)
    exact attempted_cons.2 (.inl ⟨outcome, rfl⟩)
  once := by
    -- before the first attempt the sequel cannot have run
    have hzero : continuations token trace = 0 := continuations_eq_zero (h.pending.1 hp)
    rw [continuations_cons, hzero, Nat.zero_add]
    simp only [continues_iff, Happening.resumed.injEq, true_and, hresumed]
  lapsed hs q hq := lost_cons_resumed.2 (hlapsed hs q hq)
  engine q hq := (h.engine q hq).imp id lost_cons_resumed.2

/-- A later attempt to resume a token changes nothing. -/
theorem again (h : t.Tidy alive trace token) (hattempt : Attempted token trace) :
    t.Tidy alive (⟨.resumed token .ignored, g, depth⟩ :: trace) token := by
  refine h.congr ?_ ?_ fun _ => lost_cons_resumed
  · exact iff_of_true (attempted_cons.2 (.inr hattempt)) hattempt
  · have hcontinues : (Happening.resumed token .ignored).continues token = false := rfl
    rw [continuations_cons, hcontinues]
    rfl

end SceneToken.Tidy

/-- What holds of a world while the engine with number `alive` runs, or none, of the `engines`
that there have been. -/
structure Tidy (alive : Option Nat) (engines : Nat) (w : World) : Prop where
  token : ∀ {i : Nat} {t : SceneToken}, w.tokens[i]? = some t → t.Tidy alive w.trace i
  known : ∀ {i : Nat}, Attempted i w.trace → i < w.tokens.length
  living : ∀ {serial : Nat}, alive = some serial → ¬ Lost serial w.trace ∧ serial < engines
  past : ∀ {serial : Nat}, Lost serial w.trace → serial < engines
  history : ∀ m older, m :: older <:+ w.trace → Agreed w.tokens older m.happening

namespace Tidy

variable {alive : Option Nat} {engines : Nat} {u v w : World}

/-- A change that leaves the tokens and the trace alone. -/
theorem same (hu : Tidy alive engines u) (htokens : v.tokens = u.tokens)
    (htrace : v.trace = u.trace) : Tidy alive engines v := by
  constructor
  · rw [htokens, htrace]
    exact hu.token
  · rw [htokens, htrace]
    exact hu.known
  · rw [htrace]
    exact hu.living
  · rw [htrace]
    exact hu.past
  · rw [htokens, htrace]
    exact hu.history

/-- A moment is noted at which no engine is lost. -/
theorem note {x : Happening} (hu : Tidy alive engines u) (hagreed : Agreed u.tokens u.trace x)
    (htoken : ∀ {i : Nat} {t : SceneToken}, u.tokens[i]? = some t → t.Tidy alive (u.note x).trace i)
    (hknown : ∀ i, Attempted i (u.note x).trace → i < u.tokens.length)
    (hlost : ∀ serial, Lost serial (u.note x).trace ↔ Lost serial u.trace) :
    Tidy alive engines (u.note x) := by
  refine ⟨htoken, hknown _, fun h => ?_, fun h => hu.past ((hlost _).1 h),
    forall_suffix_cons hagreed hu.history⟩
  rw [hlost]
  exact hu.living h

/-- Only tokens that were handed out are resumed. -/
theorem known_resumed {token i : Nat} {t : SceneToken} {outcome : Resumption} {g : Game}
    {depth : UInt32} (hu : Tidy alive engines u) (ht : u.tokens[token]? = some t)
    (hi : Attempted i (⟨.resumed token outcome, g, depth⟩ :: u.trace)) : i < u.tokens.length := by
  rcases attempted_cons.1 hi with ⟨o, h⟩ | h
  · obtain ⟨rfl, -⟩ := Happening.resumed.inj h
    exact (List.getElem?_eq_some_iff.1 ht).1
  · exact hu.known h

/-- A moment at which no token is resumed and no engine is lost. -/
theorem noteQuiet {x : Happening} (hu : Tidy alive engines u)
    (hagreed : Agreed u.tokens u.trace x) (hquiet : x.isQuiet = true) :
    Tidy alive engines (u.note x) := by
  refine hu.note hagreed (fun ht => (hu.token ht).quiet hquiet) (fun i hi => ?_)
    fun _ => lost_cons_of_quiet hquiet
  exact hu.known ((attempted_cons_of_quiet hquiet).1 hi)

/-- A scene is over whose engine runs. -/
theorem noteReturned {token : Nat} {t : SceneToken} {q : Sequel} (hu : Tidy alive engines u)
    (ht : u.tokens[token]? = some t) (hq : t.sequel = some q) (halive : alive = some q.engine)
    (hd : t.answer = .declined → t.status ≠ .pending) :
    Tidy alive engines (u.note (.returned token)) := by
  have htidy := hu.token ht
  have hagreed : Agreed u.tokens u.trace (.returned token) := by
    refine ⟨t, ht, by rw [hq]; rfl, fun hdeclined => ?_⟩
    -- its engine runs, so the token cannot have lapsed
    have hlapsed : t.status ≠ .lapsed := fun h => (hu.living halive).1 (htidy.lapsed h q hq)
    have hresumed : t.status = .resumed := by
      cases h : t.status with
      | resumed => rfl
      | pending => exact absurd h (hd hdeclined)
      | lapsed => exact absurd h hlapsed
    rw [htidy.once, if_pos hresumed]
  exact hu.noteQuiet hagreed rfl

/-- A token is handed out whose sequel, if there is one, belongs to the engine that runs. -/
theorem hand (hu : Tidy alive engines u) {request : SceneRequest} {answer : Playback}
    {sequel : Option Sequel} (h : ∀ q, sequel = some q → alive = some q.engine) :
    Tidy alive engines (u.hand request answer sequel) := by
  refine ⟨fun {i t} ht => ?_, fun hi => ?_, hu.living, hu.past, fun m older hm => ?_⟩
  · have htokens : (u.tokens ++ [⟨request, answer, sequel, .pending⟩])[i]? = some t := ht
    -- either an older token or the new one, which nobody tried to resume
    rcases Nat.lt_or_ge i u.tokens.length with hi | hi
    · rw [List.getElem?_append_left hi] at htokens
      exact hu.token htokens
    · rw [List.getElem?_append_right hi, List.getElem?_singleton] at htokens
      split at htokens
      · obtain rfl := Option.some.inj htokens
        have hnone : ¬ Attempted i u.trace :=
          fun hattempt => Nat.not_lt_of_ge hi (hu.known hattempt)
        have hzero : continuations i u.trace = 0 := continuations_eq_zero hnone
        refine ⟨iff_of_true rfl hnone, hzero, fun hs => ?_, fun q hq => .inl (h q hq)⟩
        cases hs
      · cases htokens
  · have hlength : (u.hand request answer sequel).tokens.length = u.tokens.length + 1 :=
      List.length_append
    have := hu.known hi
    omega
  · exact (hu.history m older hm).later (Steady.hand u request answer sequel).tokens

/-- An attempt on a token that was not tried before: it is used up, and its sequel runs if its
engine does. -/
theorem attempt {token : Nat} {t : SceneToken} {status : TokenStatus} {outcome : Resumption}
    (hu : Tidy alive engines u) (ht : u.tokens[token]? = some t) (hp : t.status = .pending)
    (hdue : Due t token u.trace outcome) (hused : status ≠ .pending)
    (hresumed : status = .resumed ↔ outcome = .continued)
    (hlapsed : status = .lapsed → ∀ q, t.sequel = some q → Lost q.engine u.trace) :
    Tidy alive engines ((u.spend token status).note (.resumed token outcome)) := by
  have hspent : Steady u (u.spend token status) := .spend ht hp status
  have hat : (u.spend token status).tokens[token]? = some { t with status } := by
    simp [World.spend, ht]
  have hother : ∀ {i : Nat}, i ≠ token → (u.spend token status).tokens[i]? = u.tokens[i]? := by
    intro i hi
    simp [World.spend, Ne.symm hi]
  have hlength : (u.spend token status).tokens.length = u.tokens.length := List.length_modify _ _ _
  refine ⟨fun {i t'} ht' => ?_, fun {i} hi => ?_, fun h => ?_, fun h => ?_,
    forall_suffix_cons ?_ fun m older hm => ?_⟩
  -- the token itself is used up, every other one is as it was
  · have htokens : (u.spend token status).tokens[i]? = some t' := ht'
    by_cases hi : i = token
    · subst hi
      rw [hat, Option.some.injEq] at htokens
      subst htokens
      exact (hu.token ht).first hp hused hresumed hlapsed
    · rw [hother hi] at htokens
      exact (hu.token htokens).other hi outcome
  · show i < (u.spend token status).tokens.length
    rw [hlength]
    exact hu.known_resumed ht hi
  · rw [World.note, lost_cons_resumed]
    exact hu.living h
  · exact hu.past (lost_cons_resumed.1 h)
  · exact ⟨_, hat, hdue.again, hdue.alive, hdue.lost, hdue.bare⟩
  · exact (hu.history m older hm).later hspent.tokens

/-- The first attempt on a token whose engine runs. -/
theorem redeem {token : Nat} {t : SceneToken} {q : Sequel} (hu : Tidy alive engines u)
    (ht : u.tokens[token]? = some t) (hp : t.status = .pending) (hq : t.sequel = some q)
    (halive : alive = some q.engine) : Tidy alive engines (u.redeem token) := by
  have hdue : Due t token u.trace .continued := by
    refine ⟨fun h => absurd h ((hu.token ht).pending.1 hp), fun _ _ _ _ => rfl, ?_, ?_⟩
    · intro _ q' hq' hlost
      rw [hq, Option.some.injEq] at hq'
      exact absurd (hq' ▸ hlost) (hu.living halive).1
    · intro _ hnone
      rw [hq] at hnone
      cases hnone
  have hspent : Tidy alive engines ((u.spend token .resumed).note (.resumed token .continued)) :=
    hu.attempt ht hp hdue (by decide) (iff_of_true rfl rfl) fun h => absurd h (by decide)
  exact hspent.same rfl rfl

/-- The first attempt on a token whose engine does not run. -/
theorem lapse {token : Nat} {t : SceneToken} (hu : Tidy alive engines u)
    (ht : u.tokens[token]? = some t) (hp : t.status = .pending)
    (hother : ∀ q, t.sequel = some q → alive ≠ some q.engine) :
    Tidy alive engines (u.lapse token) := by
  have hgone := fun q hq => ((hu.token ht).engine q hq).resolve_left (hother q hq)
  have hdue : Due t token u.trace .lapsed := by
    refine ⟨fun h => absurd h ((hu.token ht).pending.1 hp), ?_, fun _ _ _ _ => rfl, fun _ _ => rfl⟩
    exact fun _ q hq hkept => absurd (hgone q hq) hkept
  exact hu.attempt ht hp hdue (by decide) (iff_of_false (by decide) (by decide)) fun _ => hgone

/-- An attempt on a token that is used up. -/
theorem noteIgnored {token : Nat} {t : SceneToken} (hu : Tidy alive engines u)
    (ht : u.tokens[token]? = some t) (hp : t.status ≠ .pending) :
    Tidy alive engines (u.note (.resumed token .ignored)) := by
  have hattempted : Attempted token u.trace :=
    Classical.not_not.1 fun h => hp ((hu.token ht).pending.2 h)
  have hdue : Due t token u.trace .ignored :=
    ⟨fun _ => rfl, fun h => absurd hattempted h, fun h => absurd hattempted h,
      fun h => absurd hattempted h⟩
  refine hu.note ⟨t, ht, hdue⟩ (fun {i t'} ht' => ?_) (fun i hi => hu.known_resumed ht hi)
    fun _ => lost_cons_resumed
  by_cases hi : i = token
  · subst hi
    exact (hu.token ht').again hattempted
  · exact (hu.token ht').other hi .ignored

/-! ## Steps -/

variable {e : Engine} {wiring : Wiring}

theorem touch (h : Touch alive wiring u v) (hu : Tidy alive engines u) :
    Tidy alive engines v := by
  cases h with
  | counted | changed | parked | kept | logged => exact hu.same rfl rfl
  | called => exact hu.noteQuiet trivial rfl
  | handed _ _ _ _ h => exact hu.hand h
  | redeemed ht hp hq halive => exact hu.redeem ht hp hq halive
  | lapsed ht hp hother => exact hu.lapse ht hp hother
  | ignored ht hp => exact hu.noteIgnored ht hp
  | returned ht hq halive hd => exact hu.noteReturned ht hq halive hd

/-- Every step of an engine keeps the tokens tidy. -/
theorem step {g h : Stage} (hs : Step e alive wiring g u h v) (hu : Tidy alive engines u) :
    Tidy alive engines v := by
  cases hs with
  | touched h => exact touch h hu
  | shifted => exact hu
  | stalled => exact hu.noteQuiet trivial rfl
  | refused | opened =>
      have hnoted : ∀ admitted,
          Tidy alive engines (u.note (.dispatched u.depth u.inFlight admitted)) :=
        fun _ => hu.noteQuiet trivial rfl
      exact (hnoted _).same rfl rfl
  | closed | landed | tallied => exact hu.same rfl rfl
  | began =>
      have hnoted : ∀ c, Tidy alive engines (u.note (.began c)) :=
        fun _ => hu.noteQuiet trivial rfl
      exact (hnoted _).same rfl rfl
  | fired => exact World.fire_of (hu.same rfl rfl) fun hv => hv.noteQuiet trivial rfl

theorem passage {lax : Prop} (hp : Passage e alive wiring lax u v) (hu : Tidy alive engines u) :
    Tidy alive engines v := by
  cases hp with
  | course _ _ hc => exact hc.induct (I := fun _ => Tidy alive engines) step hu
  | arranged | unqueued => exact hu.same rfl rfl
  | called => exact hu.noteQuiet trivial rfl

end Tidy

/-! ## Engines come and go -/

namespace Tidy

variable {engines : Nat} {w : World}

/-- The engine that runs is lost. -/
theorem lose {serial : Nat} (hw : Tidy (some serial) engines w) :
    Tidy none engines (w.note (.engineLost serial)) := by
  have hmore : ∀ {n}, Lost n w.trace → Lost n (w.note (.engineLost serial)).trace :=
    fun h => lost_cons.2 (.inr h)
  refine ⟨fun {i t} ht => ?_, fun {i} hi => ?_, fun {n} hn => ?_, fun {n} hn => ?_,
    forall_suffix_cons trivial hw.history⟩
  · have htidy := hw.token ht
    refine ⟨?_, htidy.once, fun hs q hq => hmore (htidy.lapsed hs q hq), fun q hq => .inr ?_⟩
    · rw [World.note, attempted_cons, or_iff_right]
      · exact htidy.pending
      · rintro ⟨_, h⟩
        cases h
    · rcases htidy.engine q hq with halive | hlost
      · obtain rfl := Option.some.inj halive
        exact lost_cons.2 (.inl rfl)
      · exact hmore hlost
  · rcases attempted_cons.1 hi with ⟨_, h⟩ | h
    · cases h
    · exact hw.known h
  · cases hn
  · rcases lost_cons.1 hn with h | h
    · obtain rfl := Happening.engineLost.inj h
      exact (hw.living rfl).2
    · exact hw.past h

/-- A new engine takes a number that no engine had. -/
theorem renew (hw : Tidy none engines w) : Tidy (some engines) (engines + 1) w where
  token ht := by
    have htidy := hw.token ht
    refine ⟨htidy.pending, htidy.once, htidy.lapsed, fun q hq => .inr ?_⟩
    rcases htidy.engine q hq with halive | hlost
    · cases halive
    · exact hlost
  known := hw.known
  living h := by
    obtain rfl := Option.some.inj h
    exact ⟨fun hlost => Nat.lt_irrefl _ (hw.past hlost), Nat.lt_succ_self _⟩
  past h := Nat.lt_succ_of_lt (hw.past h)
  history := hw.history

end Tidy

/-- A play is tidy if no event is in flight and its world is tidy for its engine. -/
structure Play.Tidy (p : Play) : Prop where
  idle : p.world.inFlight = []
  world : Narrative.Tidy (p.engine.map (·.serial)) p.engines p.world

namespace Play

variable {p : Play}

theorem tidy_start (catalog : Catalog) (config : EngineConfig) (wiring : Wiring)
    (s : SessionState) : (start catalog config wiring s).Tidy where
  idle := rfl
  world := by
    refine ⟨fun h => ?_, ?_, fun h => ?_, ?_, fun m older h => ?_⟩
    · cases h
    · rintro i ⟨m, hm, -⟩
      cases hm
    · obtain rfl := Option.some.inj h
      refine ⟨?_, Nat.zero_lt_one⟩
      rintro ⟨m, hm, -⟩
      cases hm
    · rintro serial ⟨m, hm, -⟩
      cases hm
    · cases List.suffix_nil.1 h

theorem tidy_dropEngine (hp : p.Tidy) : p.dropEngine.Tidy ∧ p.dropEngine.engine = none := by
  unfold dropEngine
  split
  · next e he =>
      have hworld := hp.world
      rw [he] at hworld
      exact ⟨⟨hp.idle, hworld.lose⟩, rfl⟩
  · next he => exact ⟨hp, he⟩

/-- **Every move keeps a play tidy.** -/
theorem tidy_move (hp : p.Tidy) (m : Move) : (p.move m).2.Tidy := by
  -- a plain move is made of passages; the others exchange the engine or its wiring
  have hplain : m.IsPlain True → (p.move m).2.Tidy := by
    intro hm
    obtain ⟨hengine, -, hengines⟩ := move_frame (p := p) hm
    obtain ⟨e, alive, hman⟩ := p.exists_manned
    have halive : p.engine.map (·.serial) = alive := by
      cases hman with
      | running h => rw [h]; rfl
      | vacant h => rw [h]; rfl
    refine ⟨move_invariant hman (fun h hu => h.guards.2.trans hu) hm hp.idle hp.idle, ?_⟩
    rw [hengine, hengines, halive]
    exact move_invariant hman Tidy.passage hm hp.idle (halive ▸ hp.world)
  cases m with
  | rewire wiring => exact ⟨hp.idle, hp.world⟩
  | dropEngine =>
      rw [move_dropEngine]
      exact (tidy_dropEngine hp).1
  | restart catalog config =>
      obtain ⟨hdropped, hnone⟩ := tidy_dropEngine hp
      -- no engine runs in between, and the number of the new one is fresh
      have hworld := hdropped.world
      rw [hnone] at hworld
      exact ⟨rfl, hworld.renew.same rfl rfl⟩
  | _ => exact hplain trivial

theorem tidy_run (hp : p.Tidy) (moves : List Move) : (p.run moves).Tidy := by
  induction moves generalizing p with
  | nil => exact hp
  | cons m rest ih => exact ih (tidy_move hp m)

end Play

/-! ## The counter -/

/-- The counter of resumptions and the sequels that were run differ as two numbers do. -/
def Balanced (a b : Nat) (w : World) : Prop :=
  w.counters.continuationsResumed + a = allContinuations w.trace + b

namespace Balanced

variable {a b : Nat} {u v : World} {e : Engine} {alive : Option Nat} {wiring : Wiring}

theorem same (hu : Balanced a b u)
    (hcounter : v.counters.continuationsResumed = u.counters.continuationsResumed)
    (htrace : v.trace = u.trace) : Balanced a b v := by
  rw [Balanced, hcounter, htrace]
  exact hu

theorem note {x : Happening} (hu : Balanced a b u) (hx : x.isContinuation = false) :
    Balanced a b (u.note x) := by
  rw [Balanced, World.note, allContinuations_cons, hx]
  exact hu

theorem touch (h : Touch alive wiring u v) (hu : Balanced a b u) : Balanced a b v := by
  cases h with
  | counted _ f hf => exact hu.same (hf _).1 rfl
  | changed | parked | kept | handed | logged => exact hu.same rfl rfl
  | redeemed =>
      unfold Balanced at hu ⊢
      simp only [World.redeem, World.count, World.note, World.spend, allContinuations_cons,
        Happening.isContinuation, if_true]
      omega
  | lapsed =>
      have hspent : ∀ token, Balanced a b (u.spend token .lapsed) := fun _ => hu.same rfl rfl
      exact (hspent _).note rfl
  | called | ignored | returned => exact hu.note rfl

theorem step {g h : Stage} (hs : Step e alive wiring g u h v) (hu : Balanced a b u) :
    Balanced a b v := by
  cases hs with
  | touched h => exact touch h hu
  | shifted => exact hu
  | stalled => exact hu.note rfl
  | refused | opened =>
      have hnoted : ∀ admitted, Balanced a b (u.note (.dispatched u.depth u.inFlight admitted)) :=
        fun _ => hu.note rfl
      exact (hnoted _).same rfl rfl
  | closed | landed | tallied => exact hu.same rfl rfl
  | began =>
      have hnoted : ∀ c, Balanced a b (u.note (.began c)) := fun _ => hu.note rfl
      exact (hnoted _).same rfl rfl
  | fired => exact World.fire_of (hu.same rfl rfl) fun hv => hv.note rfl

theorem passage {lax : Prop} (hp : Passage e alive wiring lax u v) (hu : Balanced a b u) :
    Balanced a b v := by
  cases hp with
  | course _ _ hc => exact hc.induct (I := fun _ => Balanced a b) step hu
  | arranged | unqueued => exact hu.same rfl rfl
  | called => exact hu.note rfl

/-- Only a restart sets the counter back. -/
theorem move {p : Play} {m : Move} (hidle : p.world.inFlight = [])
    (hm : ∀ catalog config, m ≠ .restart catalog config) (hp : Balanced a b p.world) :
    Balanced a b (p.move m).2.world := by
  have hplain : m.IsPlain True → Balanced a b (p.move m).2.world := by
    intro hm
    obtain ⟨e, alive, hman⟩ := p.exists_manned
    exact Play.move_invariant hman passage hm hidle hp
  cases m with
  | rewire wiring => exact hp
  | dropEngine =>
      rw [Play.move_dropEngine, Play.dropEngine]
      split
      · exact hp.note rfl
      · exact hp
  | restart catalog config => exact absurd rfl (hm catalog config)
  | _ => exact hplain trivial

theorem run {p : Play} {moves : List Move} (htidy : p.Tidy)
    (hmoves : ∀ m ∈ moves, ∀ catalog config, m ≠ .restart catalog config)
    (hp : Balanced a b p.world) : Balanced a b (p.run moves).world := by
  induction moves generalizing p with
  | nil => exact hp
  | cons m rest ih =>
      have hnext := hp.move htidy.idle (hmoves m List.mem_cons_self)
      exact ih (Play.tidy_move htidy m) (fun x hx => hmoves x (List.mem_cons_of_mem m hx)) hnext

end Balanced

/-! ## Scenes and resumptions -/

/-- The scene that an action asks for, and the actions that follow it. -/
def Action.scene? : Action → Option (SceneRequest × List Action)
  | .playCinematic (some scene) onComplete => some (.cinematic scene, onComplete)
  | .systemTutorial scene context onComplete => some (.tutorial scene context, onComplete)
  | _ => none

/-- To run an action that asks for a scene is to ask for it. -/
theorem Action.run_of_scene (e : Engine) (wiring : Wiring) (reach : Reach) {a : Action}
    {request : SceneRequest} {onComplete : List Action}
    (ha : a.scene? = some (request, onComplete)) (s : SessionState) (u : World) :
    Action.run e wiring reach a s u = (true, u.started.runScene wiring reach.revive request
      ⟨e.serial, onComplete⟩ (e.continueWith wiring reach onComplete)) := by
  cases a with
  | playCinematic scene actions =>
      cases scene with
      | none => cases ha
      | some scene =>
          obtain ⟨rfl, rfl⟩ := Prod.mk.inj (Option.some.inj ha)
          rw [Action.run]
          rfl
  | systemTutorial scene context actions =>
      obtain ⟨rfl, rfl⟩ := Prod.mk.inj (Option.some.inj ha)
      rw [Action.run]
      rfl
  | _ => cases ha

/-- An action that asks for a scene hands out one token for it, with what follows the scene and
the answer that the receiver gives, and is over last. -/
theorem Action.run_scene (e : Engine) (wiring : Wiring) (k : Nat) {a : Action}
    {request : SceneRequest} {onComplete : List Action}
    (ha : a.scene? = some (request, onComplete)) (s : SessionState) (u : World) :
    let v := (Action.run e wiring (e.reach wiring k) a s u).2
    v.trace.head? = some ⟨.returned u.tokens.length, v.game, v.depth⟩ ∧
      ∃ t, v.tokens[u.tokens.length]? = some t ∧ t.request = request ∧
        t.answer = wiring.receiver.answer u.started request ∧
        t.sequel = some ⟨e.serial, onComplete⟩ := by
  -- all that is needed of the run inside is that it is steady
  have law := Law.nothing e wiring u.inFlight
  have hreach := law.reach_lawful k
  have hruns := (Law.runs (law.runAll hreach onComplete)).steady
  have hcalled : Steady (u.started.hand request (wiring.receiver.answer u.started request)
      (some ⟨e.serial, onComplete⟩)) (u.started.runScene wiring (e.reach wiring k).revive request
        ⟨e.serial, onComplete⟩ (e.continueWith wiring (e.reach wiring k) onComplete)) :=
    (Steady.note _ _).trans (.called_runScene hreach.revive.steady hruns request _ u.started)
  obtain ⟨t, ht⟩ := hcalled.handed
  rw [Action.run_of_scene e wiring _ ha]
  exact ⟨rfl, t, ht⟩

/-- What a resumption of a token with a sequel comes to: the first one uses the token up and runs the
actions of the sequel against the state as it is then, and a later one does nothing. -/
structure Engine.RunsOnce (e : Engine) (wiring : Wiring) (reach : Reach) (i : Nat) (q : Sequel)
    (u v : World) : Prop where
  first : ∀ t, u.tokens[i]? = some t → t.sequel = some q → t.status = .pending →
    v = e.continueWith wiring reach q.actions (u.redeem i)
  later : ∀ t, u.tokens[i]? = some t → t.status ≠ .pending → v = u.note (.resumed i .ignored)

theorem Engine.runsOnce_resume {e : Engine} {wiring : Wiring} {reach : Reach}
    {follow : Sequel → Option (World → World)} {q : Sequel}
    (h : follow q = some (e.continueWith wiring reach q.actions)) (i : Nat) (u : World) :
    e.RunsOnce wiring reach i q u (u.resume follow i) where
  first t ht hq hpending := by
    simp only [World.resume, ht, hpending, if_true, hq, Option.bind_some, h]
  later t ht hused := by
    simp only [World.resume, ht, hused, if_false]

/-- Inside a call an engine runs its own sequels once. -/
theorem Engine.runsOnce_revive (e : Engine) (wiring : Wiring) (k : Nat) {q : Sequel}
    (hq : q.engine = e.serial) (i : Nat) (w : World) :
    e.RunsOnce wiring (e.reach wiring k) i q w ((e.reach wiring (k + 1)).revive i w) :=
  runsOnce_resume (follow_eq_some_iff.2 ⟨hq, rfl⟩) i w

/-- To ask for a scene is to have it played, and to resume its token if it was declined. -/
theorem World.runScene_eq (wiring : Wiring) (revive : Nat → World → World)
    (request : SceneRequest) (sequel : Sequel) (run : World → World) (w : World) :
    let own := World.resume (fun _ => some run) w.tokens.length
    let played := w.playScene wiring revive request (some sequel) own
    w.runScene wiring revive request sequel run =
      (if played.1 = .declined then own played.2 else played.2).note
        (.returned w.tokens.length) := by
  simp only [World.runScene]
  generalize w.playScene wiring revive request (some sequel) _ = played
  obtain ⟨answer, v⟩ := played
  cases answer <;> rfl

/-- An action that asks for a scene lets the receiver do what it does with the call, where it
resumes the token of the scene or older ones. If it declines the scene the token is resumed once
more, in case it was not resumed before. -/
theorem Action.run_scene_eq (e : Engine) (wiring : Wiring) (k : Nat) {a : Action}
    {request : SceneRequest} {onComplete : List Action}
    (ha : a.scene? = some (request, onComplete)) (s : SessionState) (u : World) :
    let reach := e.reach wiring k
    let i := u.tokens.length
    let answer := wiring.receiver.answer u.started request
    ∃ own : World → World, (∀ w, e.RunsOnce wiring reach i ⟨e.serial, onComplete⟩ w (own w)) ∧
      let asked := u.started.ask wiring request answer (some ⟨e.serial, onComplete⟩)
      let played := asked.carryOut (fun j w => if j = i then own w else reach.revive j w)
        (wiring.receiver.acts u.started (.scene i request))
      let shown := played.fillIn wiring u.journal.length request.kind answer
      (Action.run e wiring reach a s u).2 =
        (if answer = .declined then own shown else shown).note (.returned i) := by
  intro reach i answer
  let run := e.continueWith wiring reach onComplete
  refine ⟨World.resume (fun _ => some run) i, fun w => Engine.runsOnce_resume rfl i w, ?_⟩
  intro asked played shown
  rw [Action.run_of_scene e wiring reach ha, World.runScene_eq]
  rfl

/-- Between moves a sequel is run by the engine of the play, if it is that engine's. -/
theorem Play.follow_eq_some_iff {p : Play} {q : Sequel} {run : World → World} :
    p.follow q = some run ↔ ∃ e, p.engine = some e ∧ q.engine = e.serial ∧
      e.continueWith p.wiring (e.outlets p.wiring) q.actions = run := by
  rw [Play.follow, Option.bind_eq_some_iff]
  exact exists_congr fun e => and_congr_right fun _ => Engine.follow_eq_some_iff

/-- What a resumption between moves does with a token: nothing if it was tried before; else the
sequel runs if its engine was not lost, and the token is used up without effect if it was. -/
theorem Play.resume_eq {p : Play} (hp : p.Tidy) {i : Nat} {t : SceneToken}
    (ht : p.world.tokens[i]? = some t) :
    (Attempted i p.world.trace → p.resume i p.world = p.world.note (.resumed i .ignored)) ∧
    (¬ Attempted i p.world.trace → ∀ q, t.sequel = some q →
      (Lost q.engine p.world.trace → p.resume i p.world = p.world.lapse i) ∧
      (¬ Lost q.engine p.world.trace → ∃ e, p.engine = some e ∧ e.serial = q.engine ∧
        p.resume i p.world =
          e.continueWith p.wiring (e.outlets p.wiring) q.actions (p.world.redeem i))) := by
  have htidy := hp.world.token ht
  have hresumes : p.world.Resumes p.follow i (p.resume i p.world) := p.world.resumes p.follow i
  generalize p.resume i p.world = v at hresumes ⊢
  cases hresumes with
  | unknown h =>
      rw [h] at ht
      cases ht
  | lapsed h hpending hnobody =>
      obtain rfl := Option.some.inj (h.symm.trans ht)
      refine ⟨fun hattempt => absurd hattempt (htidy.pending.1 hpending), fun _ q hq => ?_⟩
      refine ⟨fun _ => rfl, fun hkept => ?_⟩
      -- an engine that was not lost would have run the sequel
      have halive := (htidy.engine q hq).resolve_right hkept
      obtain ⟨e, he, hserial⟩ := Option.map_eq_some_iff.1 halive
      have hsome : p.follow q = some (e.continueWith p.wiring (e.outlets p.wiring) q.actions) :=
        follow_eq_some_iff.2 ⟨e, he, hserial.symm, rfl⟩
      rw [hnobody q hq] at hsome
      cases hsome
  | continued h hpending hq hfollow =>
      obtain rfl := Option.some.inj (h.symm.trans ht)
      refine ⟨fun hattempt => absurd hattempt (htidy.pending.1 hpending), fun _ q' hq' => ?_⟩
      obtain rfl := Option.some.inj (hq.symm.trans hq')
      obtain ⟨e, he, hengine, rfl⟩ := follow_eq_some_iff.1 hfollow
      refine ⟨fun hlost => ?_, fun _ => ⟨e, he, hengine.symm, rfl⟩⟩
      -- an engine that was lost is not the one that runs
      have halive : p.engine.map (·.serial) = some e.serial := by
        rw [he]
        rfl
      rw [hengine] at hlost
      exact absurd hlost (hp.world.living halive).1
  | ignored h hused =>
      obtain rfl := Option.some.inj (h.symm.trans ht)
      have hattempt : Attempted i p.world.trace :=
        Classical.not_not.1 fun hnew => hused (htidy.pending.2 hnew)
      exact ⟨fun _ => rfl, fun hnew => absurd hattempt hnew⟩

/-- **What follows a scene runs at most once.** For every run, with any receivers, drops and
restarts: every action that asks for a scene hands out a token with what follows it, which is
run at most once. If the scene is declined it has run exactly once when the action is over.
An attempt to resume the token runs it exactly if it is the first and the engine has not been
lost; a first attempt after that uses the token up and does nothing else, and neither does
any later one. This is so inside the call for the scene and after a declined one (`own`), inside
later calls, and between the moves of the host. The counter of resumptions grows by the number of
sequels that run. -/
theorem sequels_run_once (catalog : Catalog) (config : EngineConfig) (wiring : Wiring)
    (s : SessionState) (moves : List Move) :
    let p := (Play.start catalog config wiring s).run moves
    let w := p.world
    (∀ e wiring k (a : Action) request onComplete s (u : World),
      a.scene? = some (request, onComplete) →
      let v := (Action.run e wiring (e.reach wiring k) a s u).2
      v.trace.head? = some ⟨.returned u.tokens.length, v.game, v.depth⟩ ∧
        ∃ t, v.tokens[u.tokens.length]? = some t ∧ t.request = request ∧
          t.answer = wiring.receiver.answer u.started request ∧
          t.sequel = some ⟨e.serial, onComplete⟩) ∧
    (∀ e wiring k (a : Action) request onComplete s (u : World),
      a.scene? = some (request, onComplete) →
      let reach := e.reach wiring k
      let i := u.tokens.length
      let answer := wiring.receiver.answer u.started request
      ∃ own : World → World, (∀ w, e.RunsOnce wiring reach i ⟨e.serial, onComplete⟩ w (own w)) ∧
        let asked := u.started.ask wiring request answer (some ⟨e.serial, onComplete⟩)
        let played := asked.carryOut (fun j w => if j = i then own w else reach.revive j w)
          (wiring.receiver.acts u.started (.scene i request))
        let shown := played.fillIn wiring u.journal.length request.kind answer
        (Action.run e wiring reach a s u).2 =
          (if answer = .declined then own shown else shown).note (.returned i)) ∧
    (∀ (e : Engine) wiring k q, q.engine = e.serial → ∀ i w,
      e.RunsOnce wiring (e.reach wiring k) i q w ((e.reach wiring (k + 1)).revive i w)) ∧
    (∀ i, continuations i w.trace ≤ 1) ∧
    (∀ m older, m :: older <:+ w.trace → ∀ i, m.happening = .returned i →
      ∃ t, w.tokens[i]? = some t ∧ t.sequel.isSome = true ∧
        (t.answer = .declined → continuations i older = 1)) ∧
    (∀ m older, m :: older <:+ w.trace → ∀ i outcome, m.happening = .resumed i outcome →
      ∃ t, w.tokens[i]? = some t ∧ Due t i older outcome) ∧
    (∀ i t, w.tokens[i]? = some t →
      (Attempted i w.trace → p.resume i w = w.note (.resumed i .ignored)) ∧
      (¬ Attempted i w.trace → ∀ q, t.sequel = some q →
        (Lost q.engine w.trace → p.resume i w = w.lapse i) ∧
        (¬ Lost q.engine w.trace → ∃ e, p.engine = some e ∧ e.serial = q.engine ∧
          p.resume i w = e.continueWith p.wiring (e.outlets p.wiring) q.actions (w.redeem i)))) ∧
    ∀ more, (∀ m ∈ more, ∀ catalog config, m ≠ .restart catalog config) →
      (p.run more).world.counters.continuationsResumed + allContinuations w.trace =
        w.counters.continuationsResumed + allContinuations (p.run more).world.trace := by
  intro p w
  have hp : p.Tidy := Play.tidy_run (Play.tidy_start catalog config wiring s) moves
  refine ⟨fun e wiring k a request onComplete s u ha => Action.run_scene e wiring k ha s u,
    fun e wiring k a request onComplete s u ha => Action.run_scene_eq e wiring k ha s u,
    fun e wiring k q hq => e.runsOnce_revive wiring k hq, fun i => ?_,
    fun m older hm i hi => ?_, fun m older hm i outcome hi => ?_,
    fun i t ht => Play.resume_eq hp ht, fun more hmore => ?_⟩
  · rcases Nat.lt_or_ge i w.tokens.length with hi | hi
    · have honce := (hp.world.token (List.getElem?_eq_getElem hi)).once
      rw [honce]
      split <;> omega
    · have hnew : ¬ Attempted i w.trace := fun h => Nat.not_lt_of_ge hi (hp.world.known h)
      rw [continuations_eq_zero hnew]
      exact Nat.zero_le 1
  · have hagreed := hp.world.history m older hm
    rwa [hi] at hagreed
  · have hagreed := hp.world.history m older hm
    rwa [hi] at hagreed
  · have hbalanced : Balanced (allContinuations w.trace) w.counters.continuationsResumed w :=
      Nat.add_comm _ _
    have hafter := hbalanced.run hp hmore
    rw [Balanced] at hafter
    omega

/-- A lesson whose end is rewarded. -/
def lesson : List Event :=
  [{ id := "lesson", trigger := .ofAuthored { type := "talk_to", npc := some "ada" },
     conditions := [], repeatable := true,
     actions := [.systemTutorial (some "steps") none [.deed (.giveXp (some 5))]] }]

/-- A callback that is kept and called twice ends the lesson once. -/
theorem lesson_ends_once : ∃ catalog, Catalog.ofEvents lesson = .ok catalog ∧
    let screen : Screen := .entrust fun _ => ⟨0, true, .started⟩
    let w := ((Play.start catalog {} ⟨.session screen, true⟩ {}).run
      [.trigger "talk_to" (.talkedTo "ada"), .resumeKept 0, .resumeKept 0]).world
    w.counters.continuationsResumed = 1 ∧ continuations 0 w.trace = 1 ∧
      ∀ i, continuations i w.trace ≤ 1 := by
  refine ⟨_, rfl, by decide, by decide, ?_⟩
  exact (sequels_run_once _ {} _ {} _).2.2.2.1

end Narrative
