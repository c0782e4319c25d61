import Narrative.Proofs.Answers
import Narrative.Proofs.Completion

set_option autoImplicit false

/-!
# What a run adds to the record

If the engine alone records events, the record of fired events grows in a run by the
events announced in it, and each of these was begun in it: among actions, in a dispatch
that was let in during the run (`Chronicled`). Everything an engine does is chronicled
(`Chronicled.law`).

Of the execution of a candidate this says that every event announced meanwhile is the
candidate's own or was fired by a dispatch inside it (`Flown`).
-/

namespace Narrative

/-- Whether an occurrence is let in. -/
def Happening.isAdmission : Happening → Bool
  | .dispatched _ _ admitted => admitted
  | _ => false

/-- Among some moments, newest first, an event is announced after its actions were begun. -/
def FiredAmong (c : Candidate) (moments : List Moment) : Prop :=
  ∃ m b, [m, b].Sublist moments ∧ m.happening.announces c.event.id = true ∧
    b.happening = .began c

/-- Among some moments a dispatch is let in, and after that an event is begun and announced. -/
def FiredInside (c : Candidate) (moments : List Moment) : Prop :=
  ∃ m b d, [m, b, d].Sublist moments ∧ m.happening.announces c.event.id = true ∧
    b.happening = .began c ∧ d.happening.isAdmission = true

section Moments

variable {c : Candidate} {new moments : List Moment}

theorem FiredAmong.mono (h : FiredAmong c new) (hsub : new.Sublist moments) :
    FiredAmong c moments := by
  obtain ⟨m, b, hnew, hm, hb⟩ := h
  exact ⟨m, b, hnew.trans hsub, hm, hb⟩

theorem FiredInside.mono (h : FiredInside c new) (hsub : new.Sublist moments) :
    FiredInside c moments := by
  obtain ⟨m, b, d, hnew, hm, hb, hd⟩ := h
  exact ⟨m, b, d, hnew.trans hsub, hm, hb, hd⟩

theorem FiredInside.among (h : FiredInside c moments) : FiredAmong c moments := by
  obtain ⟨m, b, d, hsub, hm, hb, -⟩ := h
  have hfront : [m, b].Sublist [m, b, d] := List.sublist_append_left [m, b] [d]
  exact ⟨m, b, hfront.trans hsub, hm, hb⟩

/-- What fires among moments that come after an admission fires inside. -/
theorem FiredAmong.inside {d : Moment} (h : FiredAmong c new)
    (hd : d.happening.isAdmission = true) : FiredInside c (new ++ [d]) := by
  obtain ⟨m, b, hsub, hm, hb⟩ := h
  exact ⟨m, b, d, hsub.append (List.Sublist.refl [d]), hm, hb, hd⟩

theorem announcements_append (id : String) (newer new : List Moment) :
    announcements id (newer ++ new) = announcements id newer + announcements id new :=
  List.countP_append

theorem announcements_pos_iff {id : String} :
    0 < announcements id moments ↔ ∃ m ∈ moments, m.happening.announces id = true :=
  List.countP_pos_iff

theorem FiredAmong.announced (h : FiredAmong c moments) :
    0 < announcements c.event.id moments := by
  obtain ⟨m, b, hsub, hm, -⟩ := h
  exact announcements_pos_iff.2 ⟨m, hsub.subset List.mem_cons_self, hm⟩

/-- What the record must be after more has happened. -/
theorem recorded_append {events : List Event} {s : SessionState} {id : String} :
    Recorded events s (new ++ moments) id ↔ Recorded events s moments id ∨
      (∃ c ∈ events, c.isOnce = true ∧ c.id = id) ∧ 0 < announcements id new := by
  rw [Recorded, Recorded, announcements_append, or_assoc, ← and_or_left,
    ← Nat.add_pos_iff_pos_or_pos, Nat.add_comm]

end Moments

/-- What is said of an event that was announced in a run at a stage. -/
def Stage.Accounts : Stage → Candidate → List Moment → Prop
  | .acting _ => FiredInside
  | .ruling _ => FiredAmong

theorem Stage.Accounts.mono {g : Stage} {c : Candidate} {new moments : List Moment}
    (h : g.Accounts c new) (hsub : new.Sublist moments) : g.Accounts c moments := by
  cases g with
  | acting => exact FiredInside.mono h hsub
  | ruling => exact FiredAmong.mono h hsub

/-- What a run at a stage adds to the record, and where it comes from. -/
structure Chronicled (events : List Event) (g : Stage) (u v : World) : Prop where
  trace : u.trace <:+ v.trace
  record : ∀ id, v.game.state.completedEvents.contains id = true ↔
    Recorded events u.game.state (u.since v) id
  sources : ∀ id, 0 < announcements id (u.since v) → ∃ c : Candidate,
    events[c.position]? = some c.event ∧ c.event.id = id ∧ g.Accounts c (u.since v)

namespace Chronicled

variable {events : List Event} {g : Stage} {u v w : World}

/-- Moments at which no event is announced, while the record stays as it is. -/
theorem quiet {new : List Moment} (htrace : v.trace = new ++ u.trace)
    (hquiet : ∀ m ∈ new, ∀ id, m.happening.announces id = false)
    (hrecord : v.game.state.completedEvents = u.game.state.completedEvents) :
    Chronicled events g u v := by
  have hnone : ∀ id, announcements id (u.since v) = 0 := by
    intro id
    rw [World.since_of_trace htrace]
    refine List.countP_eq_zero.2 fun m hm => ?_
    rw [hquiet m hm id]
    exact Bool.false_ne_true
  refine ⟨⟨new, htrace.symm⟩, fun id => ?_, fun id hpos => ?_⟩
  · rw [Recorded, hnone, hrecord]
    simp
  · rw [hnone] at hpos
    cases hpos

theorem same (htrace : v.trace = u.trace)
    (hrecord : v.game.state.completedEvents = u.game.state.completedEvents) :
    Chronicled events g u v :=
  quiet (List.nil_append _ ▸ htrace) (fun _ hm => absurd hm List.not_mem_nil) hrecord

theorem note (w : World) {x : Happening} (hquiet : ∀ id, x.announces id = false) :
    Chronicled events g w (w.note x) :=
  quiet (List.singleton_append).symm (fun _ hm id => List.mem_singleton.1 hm ▸ hquiet id) rfl

theorem trans (huv : Chronicled events g u v) (hvw : Chronicled events g v w) :
    Chronicled events g u w := by
  have hsince : u.since w = v.since w ++ u.since v := World.since_trans huv.trace hvw.trace
  refine ⟨huv.trace.trans hvw.trace, fun id => ?_, fun id hpos => ?_⟩
  · rw [hsince, recorded_append, ← huv.record id, hvw.record id, Recorded]
  · rw [hsince, announcements_append] at hpos
    rw [hsince]
    rcases Nat.add_pos_iff_pos_or_pos.1 hpos with hnewer | hnew
    · obtain ⟨c, hc, hid, haccounts⟩ := hvw.sources id hnewer
      exact ⟨c, hc, hid, haccounts.mono (List.sublist_append_left _ _)⟩
    · obtain ⟨c, hc, hid, haccounts⟩ := huv.sources id hnew
      exact ⟨c, hc, hid, haccounts.mono (List.sublist_append_right _ _)⟩

/-- A run among actions is chronicled as well as one between candidates. -/
theorem weaken {k : Nat} (h : Chronicled events (.acting k) u v) : Chronicled events g u v := by
  refine ⟨h.trace, h.record, fun id hpos => ?_⟩
  obtain ⟨c, hc, hid, hinside⟩ := h.sources id hpos
  refine ⟨c, hc, hid, ?_⟩
  cases g with
  | acting => exact hinside
  | ruling => exact FiredInside.among hinside

/-- What is fired between the candidates of a dispatch is fired inside it. -/
theorem inside {k : Nat} (h : Chronicled events (.ruling k) (Engine.openDispatch u) v) :
    Chronicled events (.acting (k + 1)) u v.leave := by
  have hopen : (Engine.openDispatch u).trace = _ :: u.trace := rfl
  have hsince : u.since v.leave = (Engine.openDispatch u).since v ++
      [⟨.dispatched u.depth u.inFlight true, u.game, u.depth⟩] := by
    rw [← World.since_cons hopen]
    exact World.since_trans (hopen ▸ List.suffix_cons _ _) h.trace
  have hnone : ∀ id, announcements id [⟨.dispatched u.depth u.inFlight true, u.game, u.depth⟩] = 0 :=
    fun _ => rfl
  refine ⟨(List.suffix_cons _ _).trans h.trace, fun id => ?_, fun id hpos => ?_⟩
  · rw [hsince, recorded_append, Recorded, hnone]
    simp only [Nat.lt_irrefl, and_false, or_false]
    exact h.record id
  · rw [hsince, announcements_append, hnone, Nat.add_zero] at hpos
    rw [hsince]
    obtain ⟨c, hc, hid, hamong⟩ := h.sources id hpos
    exact ⟨c, hc, hid, FiredAmong.inside hamong rfl⟩

section Receiver

variable {alive : Option Nat} {wiring : Wiring} (hkeeps : wiring.receiver.KeepsRecord)

include hkeeps

theorem touch (h : Touch alive wiring u v) : Chronicled events g u v := by
  cases h with
  | counted | parked | kept | handed | logged => exact same rfl rfl
  | called _ entry hentry =>
      -- only the step that fires an event announces it
      refine note u fun id => ?_
      unfold Happening.announces
      split
      · next h =>
          obtain rfl := Happening.called.inj h
          exact absurd rfl (hentry _ _)
      · rfl
  | changed _ hf => exact same rfl (hkeeps hf _)
  | redeemed | lapsed | ignored | returned =>
      exact quiet (List.singleton_append).symm
        (fun _ hm _ => List.mem_singleton.1 hm ▸ rfl) rfl

/-- What a call or a scene does is chronicled if the runs inside it are. -/
theorem tracks (g : Stage) : Tracks alive wiring (Chronicled events g) where
  refl _ := same rfl rfl
  trans := trans
  touch := touch hkeeps

end Receiver

end Chronicled

/-! ## Executing a candidate -/

/-- What the execution of a candidate adds to the record: its own event, and events that
dispatches inside it fired. -/
structure Flown (events : List Event) (c : Candidate) (w v : World) : Prop where
  began : ⟨.began c, w.game, w.depth⟩ :: w.trace <:+ v.trace
  record : ∀ id, v.game.state.completedEvents.contains id = true ↔
    Recorded events w.game.state (w.since v) id
  sources : ∀ id, 0 < announcements id (w.since v) → id = c.event.id ∨ ∃ c' : Candidate,
    events[c'.position]? = some c'.event ∧ c'.event.id = id ∧ FiredInside c' (w.since v)

namespace Flown

variable {events : List Event} {c : Candidate} {k : Nat} {u v w : World}

theorem trace (h : Flown events c w v) : w.trace <:+ v.trace :=
  (List.suffix_cons _ _).trans h.began

/-- The world before may differ in what neither the record nor the trace shows. -/
theorem congr_left (h : Flown events c w v) (hgame : w.game = u.game) (hdepth : w.depth = u.depth)
    (htrace : w.trace = u.trace) : Flown events c u v := by
  have hsince : u.since v = w.since v := by rw [World.since, World.since, htrace]
  refine ⟨?_, ?_, ?_⟩
  · rw [← hgame, ← hdepth, ← htrace]
    exact h.began
  · rw [hsince, ← hgame]
    exact h.record
  · rw [hsince]
    exact h.sources

/-- The actions of a candidate are executed. -/
theorem of_begin (h : Chronicled events (.acting k) (Engine.begin c w) v) :
    Flown events c w v := by
  have hbegin : (Engine.begin c w).trace = ⟨.began c, w.game, w.depth⟩ :: w.trace := rfl
  have hnone : ∀ id, announcements id [⟨.began c, w.game, w.depth⟩] = 0 := fun _ => rfl
  have hsince : w.since v = (Engine.begin c w).since v ++ [⟨.began c, w.game, w.depth⟩] := by
    rw [World.since_trans (hbegin ▸ List.suffix_cons _ _) h.trace, World.since_cons hbegin]
  refine ⟨h.trace, fun id => ?_, fun id hpos => ?_⟩
  · rw [h.record id, hsince, recorded_append, Recorded, Recorded, hnone]
    simp only [Nat.lt_irrefl, and_false, or_false]
    rfl
  · rw [hsince, announcements_append, hnone, Nat.add_zero] at hpos
    rw [hsince]
    obtain ⟨c', hc', hid, hinside⟩ := h.sources id hpos
    exact .inr ⟨c', hc', hid, FiredInside.mono hinside (List.sublist_append_left _ _)⟩

/-- More happens, with dispatches of its own. -/
theorem trans (h : Flown events c w v) (h' : Chronicled events (.acting k) v u) :
    Flown events c w u := by
  have hsince : w.since u = v.since u ++ w.since v := World.since_trans h.trace h'.trace
  refine ⟨h.began.trans h'.trace, fun id => ?_, fun id hpos => ?_⟩
  · rw [hsince, recorded_append, ← h.record id, h'.record id, Recorded]
  · rw [hsince, announcements_append] at hpos
    rw [hsince]
    rcases Nat.add_pos_iff_pos_or_pos.1 hpos with hnewer | hnew
    · obtain ⟨c', hc', hid, hinside⟩ := h'.sources id hnewer
      exact .inr ⟨c', hc', hid, FiredInside.mono hinside (List.sublist_append_left _ _)⟩
    · refine (h.sources id hnew).imp_right ?_
      rintro ⟨c', hc', hid, hinside⟩
      exact ⟨c', hc', hid, hinside.mono (List.sublist_append_right _ _)⟩

/-- An execution is chronicled. What the candidate announces itself comes after its beginning. -/
theorem chronicled (h : Flown events c w v) (hc : events[c.position]? = some c.event) :
    Chronicled events (.ruling k) w v := by
  refine ⟨h.trace, h.record, fun id hpos => ?_⟩
  rcases h.sources id hpos with rfl | ⟨c', hc', hid, hinside⟩
  · refine ⟨c, hc, rfl, ?_⟩
    obtain ⟨newer, hnewer⟩ := h.began
    have hsince : w.since v = newer ++ [⟨.began c, w.game, w.depth⟩] :=
      World.since_of_trace (by rw [List.append_assoc]; exact hnewer.symm)
    rw [hsince] at hpos ⊢
    -- the beginning itself announces nothing
    obtain ⟨m, hm, hann⟩ := announcements_pos_iff.1 hpos
    rcases List.mem_append.1 hm with hm | hm
    · exact ⟨m, _, (List.singleton_sublist.2 hm).append (List.Sublist.refl [_]), hann, rfl⟩
    · rw [List.mem_singleton.1 hm] at hann
      cases hann
  · exact ⟨c', hc', hid, hinside.among⟩

section Built

variable {catalog : Catalog} (hcatalog : Catalog.ofEvents events = .ok catalog)
variable (hc : events[c.position]? = some c.event)

include hcatalog hc

/-- The candidate takes effect. -/
theorem fire (h : Flown events c w v) : Flown events c w (v.fire c) := by
  obtain ⟨new, hnew⟩ := h.trace
  unfold World.fire
  simp only
  split
  · next hid =>
      have hsole : ∀ c' ∈ events, c'.id = c.event.id → c' = c.event :=
        fun _ hc' heq => Catalog.eq_of_id_eq hcatalog hc hid hc' heq
      have hsince := World.since_of_trace hnew.symm
      have hsince' : w.since (((v.land c.position).changeGame c.event.record).note
          (.called (.effect (.eventCompleted c.event.id) true))) = _ :: w.since v :=
        World.since_of_trace (by rw [hsince]; exact congrArg _ hnew.symm)
      refine ⟨h.began.trans (List.suffix_cons _ _), fun id => ?_, fun id hpos => ?_⟩
      · rw [hsince', OnceLaw.recorded_cons (List.mem_of_getElem? hc) hsole rfl, ← h.record id]
        exact OnceLaw.contains_record c.event v.game id
      · rw [hsince', OnceLaw.announcements_cons] at hpos
        rw [hsince']
        by_cases heq : c.event.id = id
        · exact .inl heq.symm
        -- an announcement of another event was made before
        · have hother : Happening.announces id
              (.called (.effect (.eventCompleted c.event.id) true)) = false :=
            beq_eq_false_iff_ne.2 heq
          rw [hother, if_neg Bool.false_ne_true, Nat.add_zero] at hpos
          refine (h.sources id hpos).imp_right ?_
          rintro ⟨c', hc', hid', hinside⟩
          exact ⟨c', hc', hid', hinside.mono (List.sublist_cons_self _ _)⟩
  -- an event without an id is not recorded
  · next hid =>
      have honce : c.event.isOnce = false := by
        rw [Event.isOnce, Bool.eq_false_iff.2 hid, Bool.and_false]
      have hrecord : c.event.record v.game = v.game := by
        rw [Event.record, honce, if_neg Bool.false_ne_true]
      have hsame :
          Chronicled events (.acting 0) v ((v.land c.position).changeGame c.event.record) :=
        .same rfl (congrArg (·.state.completedEvents) hrecord)
      exact h.trans hsame

/-- The candidate lands, and if it took effect it is recorded and announced. -/
theorem of_run {wiring : Wiring} (hkeeps : wiring.receiver.KeepsRecord)
    {revive : Nat → World → World}
    (hrevive : Revives wiring (fun _ u _ v => Chronicled events (.acting k) u v) revive)
    (h : Chronicled events (.acting k) (Engine.begin c w) v) (took : Bool) :
    Flown events c w (if took then Engine.announce wiring revive c.event (v.land c.position)
      else v.land c.position) := by
  have hflown : Flown events c w v := of_begin h
  split
  · have tracks : Tracks none wiring (Chronicled events (.acting k)) := Chronicled.tracks hkeeps _
    obtain ⟨x, hx, hannounce⟩ := tracks.announce hrevive c v
    have htallied : Chronicled events (.acting k) x x.tally := .same rfl rfl
    rw [hannounce]
    exact (hflown.fire hcatalog hc).trans (hx.trans htallied)
  · have hland : Chronicled events (.acting k) v (v.land c.position) := .same rfl rfl
    exact hflown.trans hland

end Built

end Flown

/-! ## Runs -/

/-- **Everything an engine does is chronicled** if the receiver leaves the record alone. -/
theorem Chronicled.law {events : List Event} {catalog : Catalog}
    (hcatalog : Catalog.ofEvents events = .ok catalog) {e : Engine} (he : e.catalog = catalog)
    {wiring : Wiring} (hkeeps : wiring.receiver.KeepsRecord) (base : List Nat) :
    Law e wiring base fun g u _ v => Chronicled events g u v where
  toActionLaw := Tracks.acts (tracks hkeeps)
  resumption _ _ _ hruns token w := by
    have hchronicled := fun actions w => ((hruns actions).lawful w).elim fun _ h => h
    exact ⟨false, (tracks hkeeps _).follow hchronicled token w⟩
  stall w := note w fun _ => rfl
  refusal {k w} _ := (note w fun _ => rfl).trans (.same rfl rfl)
  nested _ _ h := h.inside
  flight {k revive t c w v took} hrevive hc _ _ _ _ h := by
    subst he
    have hget := Catalog.getElem?_of_mem_candidates hcatalog hc
    have hflown := Flown.of_run hcatalog hget hkeeps (hrevive.tracked (.acting k) id) h took
    exact hflown.chronicled hget
  mute _ _ _ _ _ _ _ h := h.weaken

end Narrative
