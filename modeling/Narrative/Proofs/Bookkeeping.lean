import Narrative.Proofs.Session
import Narrative.Proofs.Ledger

set_option autoImplicit false

/-!
# A run of a session and its ledger

In a run over a session the inventory changes with the effects that are called for, and with
nothing else: at every moment it stands for the ledger that the calls made before have led to
(`Booked`), and a taking is accepted exactly if the player has the item at that moment.

This is a property of worlds that reads the game and the trace only. Such a property holds
throughout a run if every call keeps it, and every change that the game makes by itself
(`TraceInvariant.run`); the host must not load another state (`Move.KeepsBooks`).
-/

namespace Narrative

open Text (foldCase)

/-! ## Moves of the host -/

/-- The moves that leave the inventory to the session: another state is not loaded, and a new
receiver is a session. -/
def Move.KeepsBooks : Move → Prop
  | .setState _ => False
  | .rewire wiring => ∃ screen, wiring.receiver = .session screen
  | _ => True

/-- A move that keeps the books leaves a session in charge. -/
theorem Play.session_move {p : Play} (hsession : ∃ screen, p.wiring.receiver = .session screen)
    {m : Move} (hm : m.KeepsBooks) : ∃ screen, (p.move m).2.wiring.receiver = .session screen := by
  by_cases hrewire : ∃ wiring, m = .rewire wiring
  · obtain ⟨wiring, rfl⟩ := hrewire
    exact hm
  · rwa [Play.wiring_move fun wiring h => hrewire ⟨wiring, h⟩]

/-- The effect that is called for. -/
def Happening.effect? : Happening → Option Effect
  | .called (.effect x _) => some x
  | _ => none

/-! ## Invariants that read the trace -/

/-- A property of worlds that reads the game and the trace only, and survives what happens over a
session: an effect is called for and applied, anything else is noted, and the game changes by itself
in the ways that `K` allows. -/
structure TraceInvariant (K : (Game → Game) → Prop) (Q : World → Prop) : Prop where
  same : ∀ {u v : World}, Q u → v.game = u.game → v.trace = u.trace → Q v
  arranged : ∀ {u : World} {f : Game → Game}, Q u → K f → Q (u.changeGame f)
  noted : ∀ {u : World} {x : Happening}, Q u → x.effect? = none → Q (u.note x)
  called : ∀ {u : World}, Q u → ∀ x : Effect,
    Q ((u.note (.called (.effect x (u.game.accepts x)))).changeGame (·.apply x))
  marked : ∀ event : String, K (·.markEvent event)
  seen : ∀ tutorial : Option String, K (·.seeTutorial tutorial)
  entered : ∀ room : String, K (·.enterRoom room)

namespace TraceInvariant

variable {K : (Game → Game) → Prop} {Q : World → Prop} (invariant : TraceInvariant K Q)

include invariant

/-- An effect that is settled keeps the property. -/
theorem settle (w : World) (wiring : Wiring) (x : Effect) (hw : Q w) : Q (w.settle wiring x) := by
  obtain ⟨journal, hsettle⟩ := w.exists_settle wiring x
  rw [hsettle]
  exact invariant.same (invariant.called hw x) rfl rfl

/-- **Everything that happens over a session** keeps the property. -/
theorem tracks (wiring : Wiring) : TraceTracks wiring K fun u v => Q u → Q v where
  trans h h' hu := h' (h hu)
  same hgame htrace hu := invariant.same hu hgame htrace
  noted _ x hx hu := by
    refine invariant.noted hu ?_
    cases x with
    | called => cases hx
    | _ => rfl
  arranged _ _ hf hu := invariant.arranged hu hf
  called w _ _ := World.settleAll_of (P := fun u v => Q u → Q v) (fun _ => id)
    (fun h h' hu => h' (h hu)) (fun x _ w => invariant.settle w wiring x) w
  scene _ _ _ hu := invariant.noted hu rfl
  recorded event := by
    by_cases honce : event.isOnce = true
    · have hrecord : event.record = (·.markEvent event.id) := by
        funext g
        rw [Event.record, if_pos honce]
      exact hrecord ▸ invariant.marked event.id
    · have hrecord : event.record = (·.seeTutorial none) := by
        funext g
        rw [Event.record, if_neg honce]
        rfl
      exact hrecord ▸ invariant.seen none
  seen := invariant.seen

/-- **A run over a session keeps the property**, if its moves keep the books. -/
theorem run {p : Play} (hsession : ∃ screen, p.wiring.receiver = .session screen)
    {moves : List Move} (hmoves : ∀ m ∈ moves, m.KeepsBooks) (hp : Q p.world) :
    Q (p.run moves).world := by
  induction moves generalizing p with
  | nil => exact hp
  | cons m rest ih =>
      obtain ⟨screen, hscreen⟩ := hsession
      have hm := hmoves m List.mem_cons_self
      refine ih (Play.session_move ⟨screen, hscreen⟩ hm)
        (fun x hx => hmoves x (List.mem_cons_of_mem m hx)) ?_
      refine (invariant.tracks p.wiring).session.move hscreen (fun f hf => ?_)
        (fun x _ => invariant.settle p.world p.wiring x) hp
      -- no other state is loaded
      unfold Move.change? at hf
      split at hf
      · exact Option.some.inj hf ▸ invariant.entered _
      · exact Option.some.inj hf ▸ invariant.entered _
      · exact hm.elim
      · exact Option.some.inj hf ▸ invariant.marked _
      · cases hf

end TraceInvariant

/-! ## Books -/

/-- A ledger after what happened, newest first. -/
def Ledger.after (l : Ledger) : List Moment → Ledger
  | [] => l
  | m :: older =>
      match m.happening.effect? with
      | some x => (l.after older).book x
      | none => l.after older

/-- A game whose inventory is distinct and stands for a ledger. -/
structure Game.Accounts (g : Game) (l : Ledger) : Prop where
  distinct : g.state.inventory.Distinct
  ledger : g.state.inventory.ledger = l

/-- A moment finds the inventory that the calls before it have led to, and a taking is accepted
exactly if the player has the item. -/
structure Moment.IsBooked (m : Moment) (l : Ledger) (older : List Moment) : Prop where
  accounts : m.game.Accounts (l.after older)
  taking : ∀ {item : String} {n : UInt32} {accepted : Bool},
    m.happening = .called (.effect (.takeItem item n) accepted) → 1 ≤ n →
      Condition.evaluate m.game.state (.hasItem item n) = some accepted

/-- The inventory stands for a ledger that was kept since the trace was `base`. -/
def Booked (l : Ledger) (base : List Moment) (w : World) : Prop :=
  ∃ new, w.trace = new ++ base ∧ w.game.Accounts (l.after new) ∧
    ∀ m older, m :: older <:+ new → m.IsBooked l older

/-- A change of the game that leaves the inventory alone. -/
def KeepsInventory (f : Game → Game) : Prop :=
  ∀ g, (f g).state.inventory = g.state.inventory

theorem Game.keepsInventory_seeTutorial (tutorial : Option String) :
    KeepsInventory (·.seeTutorial tutorial) := by
  cases tutorial <;> exact fun _ => rfl

/-- Whether something can be taken is what the condition on the item says. -/
theorem Game.evaluate_hasItem {g : Game} (hd : g.state.inventory.Distinct) {item : String}
    {n : UInt32} (hn : 1 ≤ n) : Condition.evaluate g.state (.hasItem item n) =
      some (g.accepts (.takeItem item n)) := by
  have hheld : n ≤ g.state.inventory.quantity item ↔
      (g.state.inventory.take? item n).isSome = true := by
    rw [Inventory.isSome_take?_iff hd hn, UInt32.le_iff_toNat_le, Inventory.toNat_quantity hd]
  rw [Condition.evaluate, Game.accepts, Option.some.injEq, Bool.eq_iff_iff, decide_eq_true_eq]
  exact hheld

namespace Booked

variable {l : Ledger} {base : List Moment} {u v w : World}

theorem start (hd : w.game.state.inventory.Distinct) :
    Booked w.game.state.inventory.ledger w.trace w := by
  refine ⟨[], rfl, ⟨hd, rfl⟩, fun m older h => ?_⟩
  cases List.suffix_nil.1 h

/-- A change that leaves the inventory and the trace alone. -/
theorem same (hu : Booked l base u) (hinv : v.game.state.inventory = u.game.state.inventory)
    (htrace : v.trace = u.trace) : Booked l base v := by
  obtain ⟨new, hnew, haccounts, hbefore⟩ := hu
  refine ⟨new, htrace.trans hnew, ⟨?_, ?_⟩, hbefore⟩
  · rw [hinv]
    exact haccounts.distinct
  · rw [hinv]
    exact haccounts.ledger

/-- Something happens that is no call for an effect. -/
theorem note {x : Happening} (hu : Booked l base u) (hx : x.effect? = none) :
    Booked l base (u.note x) := by
  obtain ⟨new, hnew, haccounts, hbefore⟩ := hu
  have hafter : l.after (⟨x, u.game, u.depth⟩ :: new) = l.after new := by
    rw [Ledger.after, hx]
  refine ⟨⟨x, u.game, u.depth⟩ :: new, congrArg _ hnew, hafter ▸ haccounts, ?_⟩
  refine forall_suffix_cons ⟨haccounts, ?_⟩ hbefore
  rintro item n accepted rfl
  cases hx

/-- An effect is called for, and the game applies it. -/
theorem call (hu : Booked l base u) (x : Effect) : Booked l base
    ((u.note (.called (.effect x (u.game.accepts x)))).changeGame (·.apply x)) := by
  obtain ⟨new, hnew, haccounts, hbefore⟩ := hu
  obtain ⟨hdistinct, hledger⟩ := Game.ledger_apply haccounts.distinct x
  refine ⟨⟨.called (.effect x (u.game.accepts x)), u.game, u.depth⟩ :: new, congrArg _ hnew,
    ⟨hdistinct, ?_⟩, forall_suffix_cons ⟨haccounts, ?_⟩ hbefore⟩
  · rw [haccounts.ledger] at hledger
    exact hledger
  · intro item n accepted htaking hn
    obtain ⟨rfl, rfl⟩ := Entry.effect.inj (Happening.called.inj htaking)
    exact Game.evaluate_hasItem haccounts.distinct hn

/-- **Everything that happens over a session keeps the books.** -/
theorem invariant (l : Ledger) (base : List Moment) :
    TraceInvariant KeepsInventory (Booked l base) where
  same hu hgame htrace := hu.same (congrArg (·.state.inventory) hgame) htrace
  arranged hu hf := hu.same (hf _) rfl
  noted hu hx := hu.note hx
  called hu x := hu.call x
  marked _ _ := rfl
  seen := Game.keepsInventory_seeTutorial
  entered _ _ := rfl

/-- Every run of moves that keep the books keeps them. -/
theorem run {p : Play} (hsession : ∃ screen, p.wiring.receiver = .session screen)
    {moves : List Move} (hmoves : ∀ m ∈ moves, m.KeepsBooks) (hp : Booked l base p.world) :
    Booked l base (p.run moves).world :=
  (invariant l base).run hsession hmoves hp

end Booked

/-- An effect leaves the ledger of all items alone that it is not about. -/
theorem Ledger.book_of_not_mem (l : Ledger) {x : Effect} {key : String}
    (h : ∀ item ∈ x.items, foldCase item ≠ key) : l.book x key = l key := by
  have hgive : ∀ (l : Ledger) {item : String} (n : Nat), foldCase item ≠ key →
      l.give item n key = l key := fun l _ n hne => if_neg (Ne.symm hne)
  cases x with
  | giveItem item n => exact hgive l n.toNat (h item List.mem_cons_self)
  | takeItem item n =>
      simp only [book]
      split
      · exact if_neg (Ne.symm (h item List.mem_cons_self))
      · rfl
  | grantReward r =>
      have hlines : ∀ line ∈ r.items, foldCase line.item ≠ key :=
        fun line hline => h line.item (List.mem_map_of_mem hline)
      simp only [book]
      generalize r.items = lines at hlines
      induction lines generalizing l with
      | nil => rfl
      | cons line rest ih =>
          rw [List.foldl_cons, ih _ fun x hx => hlines x (List.mem_cons_of_mem line hx)]
          exact hgive l line.quantity.toNat (hlines line List.mem_cons_self)
  | _ => rfl

/-- **The inventory of a session is a ledger that ignores case.** If at some time no two ids of
the inventory differ in case only, this remains so in every run that follows, and at each
moment the inventory stands for the ledger to which the calls made since have led; to take
something is accepted exactly if the condition on the item holds at that moment. In such an
inventory quantities and conditions read the ledger, effects do what is booked, a refused
taking changes nothing, and an accepted one leaves no debt. No effect changes what is held
of an item that it is not about. -/
theorem inventory_refines_ledger {p : Play}
    (hsession : ∃ screen, p.wiring.receiver = .session screen)
    (hdistinct : p.world.game.state.inventory.Distinct) {moves : List Move}
    (hmoves : ∀ m ∈ moves, m.KeepsBooks) :
    (∃ new, (p.run moves).world.trace = new ++ p.world.trace ∧
      (p.run moves).world.game.Accounts (p.world.game.state.inventory.ledger.after new) ∧
      ∀ m older, m :: older <:+ new →
        m.game.Accounts (p.world.game.state.inventory.ledger.after older) ∧
        ∀ item n accepted, m.happening = .called (.effect (.takeItem item n) accepted) → 1 ≤ n →
          Condition.evaluate m.game.state (.hasItem item n) = some accepted) ∧
    (∀ (g : Game) (l : Ledger), g.Accounts l →
      (∀ item, (g.state.inventory.quantity item).toNat = l (foldCase item)) ∧
      (∀ item n, Condition.evaluate g.state (.hasItem item n) =
        some (decide (n.toNat ≤ l (foldCase item)))) ∧
      (∀ item n, Condition.evaluate g.state (.lacksItem item n) =
        some (decide (l (foldCase item) < n.toNat))) ∧
      (∀ x, (g.apply x).Accounts (l.book x)) ∧
      ∀ item n, 1 ≤ n →
        (g.accepts (.takeItem item n) = true → n.toNat ≤ l (foldCase item) ∧
          (g.apply (.takeItem item n)).Accounts (l.take item n.toNat)) ∧
        (g.accepts (.takeItem item n) = false → l (foldCase item) < n.toNat ∧
          g.apply (.takeItem item n) = g)) ∧
    ∀ (l : Ledger) (x : Effect) key, (∀ item ∈ x.items, foldCase item ≠ key) →
      l.book x key = l key := by
  refine ⟨?_, fun g l hg => ?_, fun l x key h => l.book_of_not_mem h⟩
  · obtain ⟨new, hnew, haccounts, hbooked⟩ := (Booked.start hdistinct).run hsession hmoves
    refine ⟨new, hnew, haccounts, fun m older hm => ?_⟩
    have hmoment := hbooked m older hm
    exact ⟨hmoment.accounts, fun item n accepted => hmoment.taking⟩
  · obtain ⟨hd, rfl⟩ := hg
    have hread := Inventory.toNat_quantity hd
    have happly := fun x => Game.ledger_apply hd x
    refine ⟨hread, fun item n => ?_, fun item n => ?_, fun x => ⟨(happly x).1, (happly x).2⟩,
      fun item n hn => ?_⟩
    · rw [Condition.evaluate, ← hread]
      simp only [UInt32.le_iff_toNat_le]
    · rw [Condition.evaluate, ← hread]
      simp only [UInt32.lt_iff_toNat_lt]
    · have henough : g.accepts (.takeItem item n) = true ↔
          n.toNat ≤ g.state.inventory.ledger (foldCase item) :=
        Inventory.isSome_take?_iff hd hn
      obtain ⟨hdistinct', hbook⟩ := happly (.takeItem item n)
      constructor
      · intro haccepted
        have hle := henough.1 haccepted
        rw [Ledger.book, if_pos hle] at hbook
        exact ⟨hle, hdistinct', hbook⟩
      · intro hrefused
        refine ⟨Nat.lt_of_not_le fun hle => ?_, Game.apply_of_not_accepts hrefused⟩
        rw [henough.2 hle] at hrefused
        cases hrefused

/-- Rations under three spellings: too many are asked for, then so many are given that some are
lost, and then all are taken. -/
theorem rations_are_booked :
    let rations : Inventory := IdMap.ofList [("Ration_Pack", 2)]
    let p := Play.start ∅ {} ⟨.session .park, true⟩ { inventory := rations }
    let moves : List Move := [.effect (.takeItem "ration_pack" 3),
      .perform [.deed (.giveItem (some "RATION_PACK") 4294967295)],
      .effect (.takeItem "ration_Pack" 4294967295)]
    rations.Distinct ∧ (∀ m ∈ moves, m.KeepsBooks) ∧
      (p.run moves).world.game.state.inventory.isEmpty = true ∧
      ∃ new, (p.run moves).world.trace = new ++ p.world.trace ∧
        (p.run moves).world.game.Accounts (rations.ledger.after new) := by
  intro rations p moves
  have hdistinct : rations.Distinct :=
    Inventory.distinct_insert Inventory.distinct_empty fun h _ => by cases h
  have hmoves : ∀ m ∈ moves, m.KeepsBooks := by
    simp [moves, Move.KeepsBooks]
  obtain ⟨new, hnew, haccounts, -⟩ :=
    (inventory_refines_ledger (p := p) ⟨.park, rfl⟩ hdistinct hmoves).1
  exact ⟨hdistinct, hmoves, by decide, new, hnew, haccounts⟩

end Narrative
