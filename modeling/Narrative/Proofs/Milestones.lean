import Narrative.Proofs.Conduct

set_option autoImplicit false

/-!
# Milestones over a session

A session takes no milestone back: neither what an engine asks for nor the announcement of an event
nor the end of a scene does so (`KeepsMilestone`). Only the host can, by putting another state in the
place of the session's.

A milestone that an event sets is set when the session is told about it, so the moments of the trace
show when it was set first, and how many dispatches were open then (`World.openWhenSet`). What a run
does about a milestone is said by `Lasting`.
-/

namespace Narrative

/-! ## Milestones that stay set -/

/-- A milestone is set. -/
def World.HasMilestone (m : String) (w : World) : Prop := w.game.state.milestones.contains m = true

/-- A change of the game after which a milestone is set if it was set before. -/
def KeepsMilestone (m : String) (f : Game → Game) : Prop :=
  ∀ g, g.state.milestones.contains m = true → (f g).state.milestones.contains m = true

theorem Game.keepsMilestone_apply (m : String) (x : Effect) : KeepsMilestone m (·.apply x) := by
  intro g hg
  cases x with
  | milestoneSet milestone =>
      show (g.state.milestones.add milestone).contains m = true
      rw [IdSet.contains_add, hg, Bool.or_true]
  | grantReward r =>
      obtain ⟨inventory, hgrant⟩ := g.exists_grant r
      show (g.grant r).state.milestones.contains m = true
      rw [hgrant]
      exact hg
  | takeItem item quantity =>
      simp only [Game.apply]
      split <;> exact hg
  | failQuest quest reason =>
      simp only [Game.apply]
      split <;> exact hg
  | advanceQuestStage quest stage => cases quest <;> cases stage <;> exact hg
  | updateQuestTask quest task => cases quest <;> cases task <;> exact hg
  | _ => exact hg

theorem Game.keepsMilestone_seeTutorial (m : String) (tutorial : Option String) :
    KeepsMilestone m (·.seeTutorial tutorial) := by
  cases tutorial <;> exact fun _ => id

theorem Event.keepsMilestone_record (m : String) (event : Event) :
    KeepsMilestone m event.record := by
  intro g hg
  rw [Event.record]
  split <;> exact hg

/-- A session takes no milestone back, whatever its screen. -/
theorem Receiver.keepsMilestone_session (m : String) {screen : Screen} {w : World} {call : Call}
    {f : Game → Game} (hf : .change f ∈ (Receiver.session screen).acts w call) :
    KeepsMilestone m f := by
  cases call with
  | effect x =>
      rw [Receiver.session, List.mem_singleton] at hf
      rw [Act.change.inj hf]
      exact Game.keepsMilestone_apply m x
  | scene token request =>
      rw [Screen.eq_seeTutorial_of_change hf]
      exact Game.keepsMilestone_seeTutorial m _

/-! ## When the milestone is set -/

/-- A milestone is set at a moment. -/
def Moment.HasMilestone (m : String) (x : Moment) : Prop :=
  x.game.state.milestones.contains m = true

/-- The first moment since an earlier world at which a milestone is set. -/
def World.firstSet? (u v : World) (m : String) : Option Moment :=
  (u.since v).reverse.find? fun x => x.game.state.milestones.contains m

/-- The number of dispatches that were open when a milestone was set: at the first moment since an
earlier world at which it is set. If there is no such moment there were none. -/
def World.openWhenSet (u v : World) (m : String) : Nat :=
  ((u.firstSet? v m).map (·.depth.toNat)).getD 0

namespace World

variable {u v w : World} {m : String} {x : Moment}

/-- Of two runs the first decides, if the milestone was set in it. -/
theorem firstSet?_trans (huv : u.trace <:+ v.trace) (hvw : v.trace <:+ w.trace) :
    u.firstSet? w m = (u.firstSet? v m).or (v.firstSet? w m) := by
  rw [firstSet?, since_trans huv hvw, List.reverse_append, List.find?_append, firstSet?, firstSet?]

theorem firstSet?_eq_none (h : ∀ x ∈ u.since v, ¬ x.HasMilestone m) : u.firstSet? v m = none :=
  List.find?_eq_none.2 fun x hx => h x (List.mem_reverse.1 hx)

theorem exists_firstSet? (hx : x ∈ u.since v) (hset : x.HasMilestone m) :
    ∃ y, u.firstSet? v m = some y :=
  Option.isSome_iff_exists.1 (List.find?_isSome.2 ⟨x, List.mem_reverse.2 hx, hset⟩)

theorem of_firstSet? (h : u.firstSet? v m = some x) : x ∈ u.since v ∧ x.HasMilestone m :=
  ⟨List.mem_reverse.1 (List.mem_of_find?_eq_some h),
    List.find?_some (p := fun x : Moment => x.game.state.milestones.contains m) h⟩

end World

/-- What a run does about a milestone: it leaves it set, also if it was set on the way only, and
at no moment are fewer dispatches open than at the start. -/
structure Lasting (m : String) (u v : World) : Prop where
  kept : u.HasMilestone m → v.HasMilestone m
  seen : ∀ x ∈ u.since v, x.HasMilestone m → v.HasMilestone m
  deep : ∀ x ∈ u.since v, u.depth.toNat ≤ x.depth.toNat

namespace Lasting

variable {m : String} {u v w : World}

theorem plain (hkept : u.HasMilestone m → v.HasMilestone m) (hplain : u.Plain v) :
    Lasting m u v := by
  refine ⟨hkept, fun x hx hset => hkept ?_, fun x hx => ?_⟩
  · rwa [Moment.HasMilestone, (hplain x hx).1] at hset
  · exact Nat.le_of_eq (congrArg UInt32.toNat (hplain x hx).2.symm)

theorem trans (h : Lasting m u v) (h' : Lasting m v w) (huv : u.trace <:+ v.trace)
    (hvw : v.trace <:+ w.trace) (hdepth : u.depth.toNat ≤ v.depth.toNat) : Lasting m u w := by
  refine ⟨fun hu => h'.kept (h.kept hu), fun x hx hset => ?_, fun x hx => ?_⟩
  all_goals
    rw [World.since_trans huv hvw, List.mem_append] at hx
  · rcases hx with hx | hx
    · exact h'.seen x hx hset
    · exact h'.kept (h.seen x hx hset)
  · rcases hx with hx | hx
    · exact Nat.le_trans hdepth (h'.deep x hx)
    · exact h.deep x hx

/-- As long as the milestone is not set it was not set on the way. -/
theorem firstSet?_eq_none (h : Lasting m u v) (hv : ¬ v.HasMilestone m) : u.firstSet? v m = none :=
  World.firstSet?_eq_none fun x hx hset => hv (h.seen x hx hset)

/-- Once it was set on the way it is set. -/
theorem hasMilestone (h : Lasting m u v) {x : Moment} (hx : u.firstSet? v m = some x) :
    v.HasMilestone m :=
  h.seen x (World.of_firstSet? hx).1 (World.of_firstSet? hx).2

/-- What an effect on a session does about it. -/
theorem settle (wiring : Wiring) (x : Effect) (w : World) : Lasting m w (w.settle wiring x) := by
  refine plain (fun hw => ?_) (.of_note (w.trace_settle wiring x))
  rw [World.HasMilestone, World.game_settle]
  exact Game.keepsMilestone_apply m x _ hw

end Lasting

section Flight

variable {m : String} {c : Candidate} {u x v : World} (hrun : Steady (Engine.begin c u) x)
variable (hend : Steady (x.land c.position) v)

include hrun hend

/-- What is noted while the actions of a candidate run is noted in its whole execution. -/
theorem World.mem_since_flight {y : Moment} (hy : y ∈ (Engine.begin c u).since x) :
    y ∈ u.since v := by
  have hland : Steady u (x.land c.position) := .land hrun
  rw [since_trans hland.trace hend.trace]
  refine List.mem_append_right _ ?_
  show y ∈ u.since x
  rw [since_trans (List.suffix_cons _ _) hrun.trace]
  exact List.mem_append_left _ hy

/-- What the execution of a candidate does about a milestone, before and after it has landed. -/
theorem Lasting.flight (hinside : Lasting m (Engine.begin c u) x)
    (hafter : Lasting m (x.land c.position) v) : Lasting m u v := by
  have hland : Steady u (x.land c.position) := .land hrun
  have hbegan : Lasting m u (Engine.begin c u) := .plain id (.of_note rfl)
  have hflown : Lasting m u x :=
    hbegan.trans hinside (List.suffix_cons _ _) hrun.trace (Nat.le_refl _)
  have hlanded : Lasting m u (x.land c.position) := ⟨hflown.kept, hflown.seen, hflown.deep⟩
  exact hlanded.trans hafter hland.trace hend.trace (Nat.le_of_eq (hland.depth ▸ rfl))

/-- A milestone that is set first while the actions run is set first then in the whole execution. -/
theorem World.firstSet?_flight (hunset : ¬ (Engine.begin c u).HasMilestone m) {z : Moment}
    (hz : (Engine.begin c u).firstSet? x m = some z) : u.firstSet? v m = some z := by
  have hland : Steady u (x.land c.position) := .land hrun
  have hbegan : Lasting m u (Engine.begin c u) := .plain id (.of_note rfl)
  have hfirst : u.firstSet? (x.land c.position) m = some z := by
    show u.firstSet? x m = some z
    rw [firstSet?_trans (List.suffix_cons _ _) hrun.trace, hbegan.firstSet?_eq_none hunset, hz,
      Option.none_or]
  rw [firstSet?_trans hland.trace hend.trace, hfirst, Option.some_or]

end Flight

section Session

variable {wiring : Wiring} {screen : Screen} (hsession : wiring.receiver = .session screen)

include hsession

/-- To set a milestone takes effect, and the milestone is set when the session is told about
quests. -/
theorem World.performAll_setMilestone (revive : Nat → World → World) (m : String) (w : World) :
    (w.performAll wiring revive (Deed.setMilestone (some m)).effects).1 = true ∧
      ∃ x ∈ w.since (w.performAll wiring revive (Deed.setMilestone (some m)).effects).2,
        x.HasMilestone m := by
  let change : Moment := ⟨.called (.effect (.milestoneSet m) true), w.game, w.depth⟩
  let notice : Moment :=
    ⟨.called (.effect .questUpdated true), w.game.apply (.milestoneSet m), w.depth⟩
  have htrace : ((w.settle wiring (.milestoneSet m)).settle wiring .questUpdated).trace =
      [notice, change] ++ w.trace := by
    rw [trace_settle, game_settle, depth_settle, trace_settle]
    rfl
  have hset : notice.HasMilestone m := by
    show (w.game.state.milestones.add m).contains m = true
    rw [IdSet.contains_add, beq_self_eq_true, Bool.true_or]
  refine ⟨?_, notice, ?_, hset⟩
  · simp only [Deed.effects, performAll, perform_session hsession]
    rfl
  · rw [performAll_session hsession]
    show notice ∈ w.since ((w.settle wiring (.milestoneSet m)).settle wiring .questUpdated)
    rw [since_of_trace htrace]
    exact List.mem_cons_self

/-- It takes no milestone back. -/
theorem Lasting.announce {m : String} (revive : Nat → World → World) (event : Event) (w : World) :
    Lasting m w (Engine.announce wiring revive event w) := by
  have hrecorded : Lasting m w (w.changeGame event.record) :=
    .plain (Event.keepsMilestone_record m event w.game) (.of_same rfl)
  have hcounted : ∀ v : World, Lasting m v v.tally := fun v => .plain id (.of_same rfl)
  unfold Engine.announce
  simp only
  split
  · rw [World.perform_session hsession]
    have hcalled : Lasting m w
        ((w.changeGame event.record).settle wiring (.eventCompleted event.id)) := by
      refine hrecorded.trans (.settle _ _ _) List.suffix_rfl ?_ (Nat.le_refl _)
      rw [World.trace_settle]
      exact List.suffix_cons _ _
    refine hcalled.trans (hcounted _) ?_ List.suffix_rfl ?_
    · rw [World.trace_settle]
      exact List.suffix_cons _ _
    · rw [World.depth_settle]
      exact Nat.le_refl _
  · exact hrecorded.trans (hcounted _) List.suffix_rfl List.suffix_rfl (Nat.le_refl _)

end Session

end Narrative
