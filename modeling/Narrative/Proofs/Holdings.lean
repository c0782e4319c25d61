import Narrative.Proofs.Upkeep
import Narrative.Proofs.Spelling

set_option autoImplicit false

/-!
# What an inventory lists

An inventory should list what is held and nothing else. Taking keeps to that: an entry that is used up
goes. Giving does so if something is given, and a deed that gives an item gives at least one of it. The
lines of a reward are taken as they are written, and a line with the quantity zero may be one of them.
Such a line lists the item if it is not held and no other line of the reward gives some of it.

So the inventory of a session lists what is held, at every moment of a run and at its end, exactly if
no call is hollow in this way (`inventory_lists_holdings_iff_no_gift_is_hollow`), and only a reward with
such a line can be (`Game.hollow_reward`).
-/

namespace Narrative

open Text (sameId)

namespace Inventory

/-- Every entry is at least one. -/
def Positive (inv : Inventory) : Prop := ∀ held q, inv.get? held = some q → 1 ≤ q

/-- An item is listed, whatever the spelling. -/
def Lists (inv : Inventory) (item : String) : Prop :=
  ∃ held q, inv.get? held = some q ∧ sameId held item = true

/-- An item is listed with a quantity of at least one. -/
def Holds (inv : Inventory) (item : String) : Prop :=
  ∃ held q, inv.get? held = some q ∧ sameId held item = true ∧ 1 ≤ q

/-- An entry of zero is the only one of its item. -/
def ZeroAlone (inv : Inventory) : Prop :=
  ∀ a b q, inv.get? a = some 0 → inv.get? b = some q → sameId a b = true → a = b

theorem positive_iff_entries (inv : Inventory) : (∀ e ∈ inv.entries, 1 ≤ e.2) ↔ inv.Positive :=
  ⟨fun h _ _ hget => h _ (IdMap.mem_entries_iff.2 hget),
    fun h e he => h e.1 e.2 (IdMap.mem_entries_iff.1 he)⟩

instance (inv : Inventory) : Decidable inv.Positive := decidable_of_iff _ inv.positive_iff_entries

/-- Whether an item is listed can be told from the ids. -/
theorem lists_iff_any (inv : Inventory) (item : String) :
    inv.keys.any (sameId · item) = true ↔ inv.Lists item := by
  rw [List.any_eq_true]
  constructor
  · rintro ⟨held, hheld, hsame⟩
    obtain ⟨e, he, rfl⟩ := List.mem_map.1 hheld
    exact ⟨e.1, e.2, IdMap.mem_entries_iff.1 he, hsame⟩
  · rintro ⟨held, q, hget, hsame⟩
    exact ⟨held, List.mem_map.2 ⟨(held, q), IdMap.mem_entries_iff.2 hget, rfl⟩, hsame⟩

instance (inv : Inventory) (item : String) : Decidable (inv.Lists item) :=
  decidable_of_iff _ (inv.lists_iff_any item)

variable {inv : Inventory} {item other : String} {n : UInt32}

theorem not_one_le_zero : ¬(1 : UInt32) ≤ 0 := by decide

theorem one_le_of_ne_zero {q : UInt32} (h : q ≠ 0) : 1 ≤ q := by
  rw [UInt32.le_iff_toNat_le]
  exact Nat.pos_of_ne_zero fun hzero => h (UInt32.toNat_inj.1 hzero)

theorem Positive.zeroAlone (h : inv.Positive) : inv.ZeroAlone :=
  fun _ _ _ ha => absurd (h _ _ ha) not_one_le_zero

theorem Holds.lists (h : inv.Holds item) : inv.Lists item :=
  let ⟨held, q, hget, hsame, _⟩ := h
  ⟨held, q, hget, hsame⟩

/-- As long as zeros stand alone, all entries are positive if all that is listed is held. -/
theorem ZeroAlone.positive_iff (halone : inv.ZeroAlone) :
    inv.Positive ↔ ∀ item, inv.Lists item → inv.Holds item := by
  constructor
  · rintro h item ⟨held, q, hget, hsame⟩
    exact ⟨held, q, hget, hsame, h held q hget⟩
  · intro h held q hget
    refine one_le_of_ne_zero fun hzero => ?_
    subst hzero
    obtain ⟨a, p, ha, hsame, hp⟩ := h held ⟨held, 0, hget, Text.sameId_refl held⟩
    obtain rfl := halone held a p hget ha (Text.sameId_comm a held ▸ hsame)
    obtain rfl := Option.some.inj (hget.symm.trans ha)
    exact not_one_le_zero hp

/-! ## Adding -/

/-- The entry that an addition is made to. -/
theorem get?_add (inv : Inventory) (item : String) (n : UInt32) (key : String) :
    (inv.add item n).get? key = if key = inv.spelling item
      then some (Quantity.sum ((inv.get? (inv.spelling item)).getD 0) n) else inv.get? key :=
  IdMap.get?_insert inv (inv.spelling item) key _

theorem sameId_spelling (inv : Inventory) (item : String) :
    sameId (inv.spelling item) item = true := by
  rcases spelling_cases inv item with ⟨q, -, hkey⟩ | ⟨heq, -⟩
  · exact Text.sameId_iff.2 hkey
  · rw [heq]
    exact Text.sameId_refl item

theorem one_le_sum_iff (a b : UInt32) : 1 ≤ Quantity.sum a b ↔ 1 ≤ a ∨ 1 ≤ b := by
  have hsum := Quantity.toNat_sum a b
  simp only [UInt32.le_iff_toNat_le, hsum, UInt32.size]
  show 1 ≤ min (a.toNat + b.toNat) (2 ^ 32 - 1) ↔ 1 ≤ a.toNat ∨ 1 ≤ b.toNat
  omega

theorem lists_add : (inv.add item n).Lists other ↔ inv.Lists other ∨ sameId item other = true := by
  have hspelled := sameId_spelling inv item
  constructor
  · rintro ⟨held, q, hget, hsame⟩
    rw [get?_add] at hget
    split at hget
    · next hheld =>
        subst hheld
        exact .inr (Text.sameId_trans (Text.sameId_comm _ _ ▸ hspelled) hsame)
    · exact .inl ⟨held, q, hget, hsame⟩
  · have hadded : sameId (inv.spelling item) other = true → (inv.add item n).Lists other :=
      fun hsame => ⟨_, _, (get?_add ..).trans (if_pos rfl), hsame⟩
    rintro (⟨held, q, hget, hsame⟩ | hsame)
    · by_cases hheld : held = inv.spelling item
      · exact hadded (hheld ▸ hsame)
      · exact ⟨held, q, by rwa [get?_add, if_neg hheld], hsame⟩
    · exact hadded (Text.sameId_trans hspelled hsame)

theorem holds_add :
    (inv.add item n).Holds other ↔ inv.Holds other ∨ (sameId item other = true ∧ 1 ≤ n) := by
  have hspelled := sameId_spelling inv item
  constructor
  · rintro ⟨held, q, hget, hsame, hq⟩
    rw [get?_add] at hget
    split at hget
    · next hheld =>
        subst hheld
        rw [← Option.some.inj hget, one_le_sum_iff] at hq
        rcases hq with hbefore | hn
        · cases hkey : inv.get? (inv.spelling item) with
          | none =>
              rw [hkey] at hbefore
              exact absurd hbefore not_one_le_zero
          | some p =>
              rw [hkey] at hbefore
              exact .inl ⟨_, p, hkey, hsame, hbefore⟩
        · exact .inr ⟨Text.sameId_trans (Text.sameId_comm _ _ ▸ hspelled) hsame, hn⟩
    · exact .inl ⟨held, q, hget, hsame, hq⟩
  · have hadded : sameId (inv.spelling item) other = true →
        1 ≤ (inv.get? (inv.spelling item)).getD 0 ∨ 1 ≤ n → (inv.add item n).Holds other :=
      fun hsame hsome =>
        ⟨_, _, (get?_add ..).trans (if_pos rfl), hsame, (one_le_sum_iff _ n).2 hsome⟩
    rintro (⟨held, q, hget, hsame, hq⟩ | ⟨hsame, hn⟩)
    · by_cases hheld : held = inv.spelling item
      · subst hheld
        refine hadded hsame (.inl ?_)
        rw [hget]
        exact hq
      · exact ⟨held, q, by rwa [get?_add, if_neg hheld], hsame, hq⟩
    · exact hadded (Text.sameId_trans hspelled hsame) (.inr hn)

/-- An addition is made to the entry of the item, if there is one. -/
theorem ZeroAlone.add (h : inv.ZeroAlone) (item : String) (n : UInt32) :
    (inv.add item n).ZeroAlone := by
  intro a b q ha hb hsame
  rw [get?_add] at ha hb
  by_cases ha' : a = inv.spelling item <;> by_cases hb' : b = inv.spelling item
  · rw [ha', hb']
  · rw [if_pos ha', Option.some.injEq] at ha
    rw [if_neg hb'] at hb
    rcases spelling_cases inv item with ⟨p, hp, -⟩ | ⟨heq, hnone⟩
    -- what sums up to zero was zero
    · have hzero : p = 0 := by
        by_contra hne
        have hsum := (one_le_sum_iff p n).2 (.inl (one_le_of_ne_zero hne))
        rw [hp, Option.getD_some] at ha
        rw [ha] at hsum
        exact not_one_le_zero hsum
      rw [hzero, ← ha'] at hp
      exact h a b q hp hb hsame
    · rw [ha', heq] at hsame
      exact absurd (Text.sameId_iff.1 hsame).symm (hnone hb)
  · rw [if_neg ha'] at ha
    rw [hb'] at hsame ⊢
    rcases spelling_cases inv item with ⟨p, hp, -⟩ | ⟨heq, hnone⟩
    · exact h a _ p ha hp hsame
    · rw [heq] at hsame
      exact absurd (Text.sameId_iff.1 hsame) (hnone ha)
  · rw [if_neg ha'] at ha
    rw [if_neg hb'] at hb
    exact h a b q ha hb hsame

/-- The inventory after items came in, line by line. -/
def addAll (inv : Inventory) (lines : List RewardItem) : Inventory :=
  lines.foldl (fun inv line => inv.add line.item line.quantity) inv

theorem lists_addAll (lines : List RewardItem) : (inv.addAll lines).Lists other ↔
    inv.Lists other ∨ ∃ line ∈ lines, sameId line.item other = true := by
  induction lines generalizing inv with
  | nil => simp [addAll]
  | cons line rest ih =>
      rw [addAll, List.foldl_cons, ← addAll, ih, lists_add, List.exists_mem_cons_iff, or_assoc]

theorem holds_addAll (lines : List RewardItem) : (inv.addAll lines).Holds other ↔
    inv.Holds other ∨ ∃ line ∈ lines, sameId line.item other = true ∧ 1 ≤ line.quantity := by
  induction lines generalizing inv with
  | nil => simp [addAll]
  | cons line rest ih =>
      rw [addAll, List.foldl_cons, ← addAll, ih, holds_add, List.exists_mem_cons_iff, or_assoc]

theorem ZeroAlone.addAll (h : inv.ZeroAlone) (lines : List RewardItem) :
    (inv.addAll lines).ZeroAlone := by
  induction lines generalizing inv with
  | nil => exact h
  | cons line rest ih => exact ih (h.add line.item line.quantity)

/-- **Items that come in leave a zero** exactly if one of them was not held and none of its lines
gives some of it. -/
theorem Positive.addAll_iff (h : inv.Positive) (lines : List RewardItem) :
    (inv.addAll lines).Positive ↔ ∀ line ∈ lines, inv.Lists line.item ∨
      ∃ other ∈ lines, sameId other.item line.item = true ∧ 1 ≤ other.quantity := by
  have hheld (item : String) : inv.Lists item ↔ inv.Holds item :=
    ⟨h.zeroAlone.positive_iff.1 h item, Holds.lists⟩
  rw [(h.zeroAlone.addAll lines).positive_iff]
  constructor
  · intro hall line hline
    have hlisted : (inv.addAll lines).Lists line.item :=
      (lists_addAll lines).2 (.inr ⟨line, hline, Text.sameId_refl line.item⟩)
    have hholds := (holds_addAll lines).1 (hall line.item hlisted)
    rwa [← hheld] at hholds
  · intro hlines item hlisted
    rw [holds_addAll, ← hheld]
    rcases (lists_addAll lines).1 hlisted with hbefore | ⟨line, hline, hsame⟩
    · exact .inl hbefore
    · rcases hlines line hline with ⟨held, q, hget, hspelled⟩ | ⟨other, hother, hspelled, hsome⟩
      · exact .inl ⟨held, q, hget, Text.sameId_trans hspelled hsame⟩
      · exact .inr ⟨other, hother, Text.sameId_trans hspelled hsame, hsome⟩

/-! ## Taking and reading -/

/-- What is taken leaves no zero behind: an entry that is used up goes. -/
theorem Positive.take? (h : inv.Positive) {inv' : Inventory} (htake : inv.take? item n = some inv') :
    inv'.Positive := by
  rw [Inventory.take?, Option.map_eq_some_iff] at htake
  obtain ⟨⟨key, held⟩, -, hafter⟩ := htake
  simp only at hafter
  split at hafter
  · subst hafter
    intro a q hget
    rw [IdMap.get?_erase] at hget
    split at hget
    · cases hget
    · exact h a q hget
  · next hleft =>
      subst hafter
      intro a q hget
      rw [IdMap.get?_insert] at hget
      split at hget
      · exact Option.some.inj hget ▸ one_le_of_ne_zero hleft
      · exact h a q hget

/-- The largest of some quantities is at least each of them. -/
theorem le_foldl_max {qs : List UInt32} {start q : UInt32} (h : q ≤ start ∨ q ∈ qs) :
    q ≤ qs.foldl max start := by
  induction qs generalizing start with
  | nil => exact h.resolve_right List.not_mem_nil
  | cons p rest ih =>
      have hmax : start ≤ max start p ∧ p ≤ max start p := by
        simp only [Max.max]
        split
        · next hle => exact ⟨hle, UInt32.le_refl p⟩
        · next hlt => exact ⟨UInt32.le_refl start, UInt32.le_of_lt (UInt32.not_le.1 hlt)⟩
      rw [List.foldl_cons]
      refine ih ?_
      rcases h with hstart | hmem
      · exact .inl (UInt32.le_trans hstart hmax.1)
      · rcases List.mem_cons.1 hmem with rfl | hrest
        · exact .inl hmax.2
        · exact .inr hrest

/-- **An item is listed exactly if some of it is held.** -/
theorem Positive.lists_iff (h : inv.Positive) (item : String) :
    inv.Lists item ↔ 1 ≤ inv.quantity item := by
  unfold quantity
  cases hexact : inv.get? item with
  | some q => exact iff_of_true ⟨item, q, hexact, Text.sameId_refl item⟩ (h item q hexact)
  | none =>
      simp only
      constructor
      · rintro ⟨held, q, hget, hsame⟩
        refine UInt32.le_trans (h held q hget) (le_foldl_max (.inr ?_))
        exact List.mem_map.2 ⟨(held, q), List.mem_filter.2 ⟨IdMap.mem_entries_iff.2 hget, hsame⟩, rfl⟩
      · intro hsome
        cases hlist : inv.entries.filter fun e => sameId e.1 item with
        | nil =>
            rw [hlist] at hsome
            exact absurd hsome not_one_le_zero
        | cons e rest =>
            obtain ⟨hmem, hsame⟩ := List.mem_filter.1 (hlist ▸ List.mem_cons_self : e ∈ _)
            exact ⟨e.1, e.2, IdMap.mem_entries_iff.1 hmem, hsame⟩

end Inventory

/-! ## Gifts -/

/-- The items that an effect gives, line by line. -/
def Effect.gifts : Effect → List RewardItem
  | .giveItem item n => [⟨item, n⟩]
  | .grantReward r => r.items
  | _ => []

/-- The deeds that give something: an item, or a reward. -/
theorem Deed.eq_of_gifts {d : Deed} {x : Effect} (hx : x ∈ d.effects) {line : RewardItem}
    (hline : line ∈ x.gifts) : d = .giveItem (some line.item) line.quantity ∨
      ∃ spec, d = .giveReward spec ∧ line ∈ spec.merge.items := by
  cases d with
  | giveItem item n =>
      cases item with
      | none => cases hx
      | some item =>
          obtain rfl := List.mem_singleton.1 hx
          obtain rfl := List.mem_singleton.1 hline
          exact .inl rfl
  | giveReward spec =>
      obtain rfl := List.mem_singleton.1 hx
      exact .inr ⟨spec, rfl, hline⟩
  | _ =>
      -- whatever else is asked for gives nothing
      have hgifts : x.gifts = [] := by
        unfold effects at hx
        grind [Effect.gifts]
      rw [hgifts] at hline
      cases hline

namespace Game

variable {g : Game}

/-- An effect that lists an item of which nothing is held: it is not listed yet, and no line of the
effect gives some of it. -/
def Hollow (g : Game) (x : Effect) : Prop :=
  ∃ line ∈ x.gifts, ¬g.state.inventory.Lists line.item ∧
    ∀ other ∈ x.gifts, sameId other.item line.item = true → other.quantity = 0

instance (g : Game) (x : Effect) : Decidable (g.Hollow x) :=
  inferInstanceAs (Decidable (∃ line ∈ x.gifts, ¬g.state.inventory.Lists line.item ∧
    ∀ other ∈ x.gifts, sameId other.item line.item = true → other.quantity = 0))

/-- What is given is added to the inventory. -/
theorem inventory_grant (g : Game) (r : Reward) :
    (g.grant r).state.inventory = g.state.inventory.addAll r.items := by
  have hlines : ∀ (lines : List RewardItem) (g : Game),
      (lines.foldl (fun g i => g.addItem i.item i.quantity) g).state.inventory =
        g.state.inventory.addAll lines := by
    intro lines
    induction lines with
    | nil => exact fun _ => rfl
    | cons line rest ih => exact fun g => ih (g.addItem line.item line.quantity)
  rw [grant]
  split
  -- an empty reward has no lines
  · next hempty =>
      have hnone : r.items = [] := by
        simp only [Reward.isEmpty, Bool.and_eq_true, List.isEmpty_iff] at hempty
        exact hempty.2
      rw [hnone]
      rfl
  · exact hlines r.items _

/-- A gift is hollow exactly if it leaves a zero. -/
theorem positive_addAll_iff (h : g.state.inventory.Positive) (x : Effect) :
    (g.state.inventory.addAll x.gifts).Positive ↔ ¬g.Hollow x := by
  rw [h.addAll_iff]
  constructor
  · rintro hall ⟨line, hline, hnew, hzero⟩
    obtain ⟨other, hother, hsame, hsome⟩ := (hall line hline).resolve_left hnew
    rw [hzero other hother hsame] at hsome
    exact Inventory.not_one_le_zero hsome
  · intro hfull line hline
    by_contra hneither
    obtain ⟨hnew, hnone⟩ := not_or.1 hneither
    refine hfull ⟨line, hline, hnew, fun other hother hsame => ?_⟩
    by_contra hne
    exact hnone ⟨other, hother, hsame, Inventory.one_le_of_ne_zero hne⟩

/-- **Only a hollow gift leaves a zero.** -/
theorem positive_apply (h : g.state.inventory.Positive) (x : Effect) :
    (g.apply x).state.inventory.Positive ↔ ¬g.Hollow x := by
  -- an effect that gives nothing is not hollow
  have hnothing (hgifts : x.gifts = []) (hafter : (g.apply x).state.inventory.Positive) :
      (g.apply x).state.inventory.Positive ↔ ¬g.Hollow x := by
    refine iff_of_true hafter ?_
    rintro ⟨line, hline, -⟩
    rw [hgifts] at hline
    cases hline
  cases x with
  | giveItem item n => exact positive_addAll_iff h (.giveItem item n)
  | grantReward r =>
      rw [apply, inventory_grant]
      exact positive_addAll_iff h (.grantReward r)
  | takeItem item n =>
      refine hnothing rfl ?_
      simp only [apply]
      split
      · next htake => exact h.take? htake
      · exact h
  | failQuest quest reason =>
      refine hnothing rfl ?_
      simp only [apply]
      split <;> exact h
  | advanceQuestStage quest stage =>
      exact hnothing rfl (by cases quest <;> cases stage <;> exact h)
  | updateQuestTask quest task => exact hnothing rfl (by cases quest <;> cases task <;> exact h)
  | _ => exact hnothing rfl h

/-- What a session does to its game leaves no zero in its inventory, unless a gift is hollow. -/
theorem positive_upkeep : Upkeep (·.state.inventory.Positive) Hollow where
  apply := positive_apply
  marked _ _ := Iff.rfl
  seen tutorial _ := by cases tutorial <;> exact Iff.rfl
  entered _ _ := Iff.rfl

/-- A deed that gives an item gives at least one of it, so of all deeds only a reward can be hollow,
and only because of a line that is written with the quantity zero. -/
theorem hollow_reward {key : String} {a : Authored.ActionFields} {d : Deed}
    (hd : Deed.known? key a = some d) {x : Effect} (hx : x ∈ d.effects) (hhollow : g.Hollow x) :
    ∃ spec, d = .giveReward spec ∧ ∃ line ∈ spec.merge.items, line.quantity = 0 := by
  obtain ⟨line, hline, -, hzero⟩ := hhollow
  have hnone := hzero line hline (Text.sameId_refl line.item)
  rcases Deed.eq_of_gifts hx hline with rfl | ⟨spec, rfl, hmem⟩
  · have hsome : 1 ≤ line.quantity := (Deed.isTidy_known? hd).quantity _ rfl
    rw [hnone] at hsome
    exact absurd hsome Inventory.not_one_le_zero
  · exact ⟨spec, rfl, line, hmem, hnone⟩

end Game

/-- **An inventory lists what is held unless a gift is hollow.** If at some time every entry of the
inventory is at least one, this holds at every moment of a run over a session that follows, and at its
end, exactly if no effect that is called for is hollow at that moment. The run may consist of all moves
but to load another state. In such an inventory an item is listed exactly if some of it is held. No deed
asks for a hollow effect but to give a reward with a line of the quantity zero. -/
theorem inventory_lists_holdings_iff_no_gift_is_hollow {p : Play}
    (hsession : ∃ screen, p.wiring.receiver = .session screen)
    (hpositive : p.world.game.state.inventory.Positive) {moves : List Move}
    (hmoves : ∀ m ∈ moves, m.KeepsBooks) :
    (∃ new, (p.run moves).world.trace = new ++ p.world.trace ∧
      (((∀ m ∈ new, m.game.state.inventory.Positive) ∧
          (p.run moves).world.game.state.inventory.Positive) ↔
        ∀ m ∈ new, ∀ x ∈ m.happening.effect?, ¬m.game.Hollow x)) ∧
    (∀ inv : Inventory, inv.Positive → ∀ item, inv.Lists item ↔ 1 ≤ inv.quantity item) ∧
    ∀ (key : String) (a : Authored.ActionFields) (d : Deed), Deed.known? key a = some d →
      ∀ x ∈ d.effects, ∀ g : Game, g.Hollow x →
        ∃ spec, d = .giveReward spec ∧ ∃ line ∈ spec.merge.items, line.quantity = 0 :=
  ⟨Game.positive_upkeep.run hsession hpositive hmoves, fun _ h => h.lists_iff,
    fun _ _ _ hd _ hx _ => Game.hollow_reward hd hx⟩

/-- A reward with two lines. -/
def bounty (first second : RewardItem) : Move :=
  .perform (Action.ofAuthoredList
    [.mk { type := "give_reward", items := some [first, second] } [] [] []])

/-- A line of zero does no harm if the item is held or another line gives some of it. -/
theorem bounty_is_held :
    let gears : Inventory := IdMap.ofList [("Gear", 2)]
    let p := Play.start ∅ {} ⟨.session .park, true⟩ { inventory := gears }
    let moves := [bounty ⟨"gear", 0⟩ ⟨"coin", 3⟩, bounty ⟨"fuse", 0⟩ ⟨"Fuse", 1⟩,
      .effect (.takeItem "COIN" 3)]
    p.world.game.state.inventory.Positive ∧ (∀ m ∈ moves, m.KeepsBooks) ∧
      (p.run moves).world.game.state.inventory.keys = ["Gear", "fuse"] ∧
      (p.run moves).world.game.state.inventory.Positive := by
  intro gears p moves
  have hpositive : p.world.game.state.inventory.Positive := by decide +kernel
  have hmoves : ∀ m ∈ moves, m.KeepsBooks := by simp [moves, bounty, Move.KeepsBooks]
  obtain ⟨⟨new, hnew, hkept⟩, -⟩ :=
    @inventory_lists_holdings_iff_no_gift_is_hollow p ⟨.park, rfl⟩ hpositive moves hmoves
  have htrace : new = (p.run moves).world.trace := by
    rw [hnew]
    exact (List.append_nil new).symm
  subst htrace
  exact ⟨hpositive, hmoves, by decide +kernel, (hkept.2 (by decide +kernel)).2⟩

/-- A reward with a line of zero lists an item of which nothing is held. -/
theorem gear_is_listed_and_not_held :
    let p := Play.start ∅ {} ⟨.session .park, true⟩ {}
    let inv := (p.run [bounty ⟨"gear", 0⟩ ⟨"coin", 3⟩]).world.game.state.inventory
    p.world.game.state.inventory.Positive ∧ inv.Lists "gear" ∧ inv.quantity "gear" = 0 :=
  ⟨by decide +kernel, by decide +kernel, by decide +kernel⟩

end Narrative
