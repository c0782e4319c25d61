import Narrative.Condition
import Narrative.Game

set_option autoImplicit false

/-!
# The ledger behind an inventory

An inventory looks items up without regard to case, and each operation does so in its own
way: a reading prefers the exact id and else takes the largest quantity, an addition
searches for the held spelling, a taking searches for an entry with enough in it. If no two
ids of the inventory differ in case only (`Inventory.Distinct`), all of them agree with one
ledger that is kept by the ids in small letters (`Inventory.ledger`).

What an effect does to the ledger is `Ledger.book`, and a game does the same
(`Game.ledger_apply`). Inventories stay distinct (`Game.distinct_apply`).
-/

namespace Narrative

open Text (sameId foldCase)

/-- The quantity held of each item, by its id in small letters. -/
abbrev Ledger := String → Nat

namespace Ledger

/-- The largest quantity there is. -/
def ceiling : Nat := UInt32.size - 1

/-- The ledger after some of an item came in: what is above the largest quantity is lost. -/
def give (l : Ledger) (item : String) (n : Nat) : Ledger := fun key =>
  if key = foldCase item then min (l key + n) ceiling else l key

/-- The ledger after some of an item went out. -/
def take (l : Ledger) (item : String) (n : Nat) : Ledger := fun key =>
  if key = foldCase item then l key - n else l key

/-- The ledger after an effect: the items that are given come in, those of a reward line by
line, and the items that are taken go out if enough is held. -/
def book (l : Ledger) : Effect → Ledger
  | .giveItem item n => l.give item n.toNat
  | .grantReward r => r.items.foldl (fun l line => l.give line.item line.quantity.toNat) l
  | .takeItem item n => if n.toNat ≤ l (foldCase item) then l.take item n.toNat else l
  | _ => l

end Ledger

/-- The items that an effect is about. -/
def Effect.items : Effect → List String
  | .giveItem item _ => [item]
  | .takeItem item _ => [item]
  | .grantReward r => r.items.map (·.item)
  | _ => []

namespace Inventory

/-- No two ids of an inventory differ in case only. -/
def Distinct (inv : Inventory) : Prop :=
  ∀ (a b : String) (p q : UInt32), inv.get? a = some p → inv.get? b = some q →
    sameId a b = true → a = b

/-- The ledger that an inventory stands for. -/
def ledger (inv : Inventory) : Ledger := fun key =>
  ((inv.entries.find? fun e => foldCase e.1 == key).map (·.2.toNat)).getD 0

/-! ## Entries and the ledger -/

section Entries

variable {inv : Inventory} {item a b : String} {q : UInt32}

theorem distinct_empty : (∅ : Inventory).Distinct := by
  intro a b p q ha
  cases ha

/-- In a distinct inventory the spelling of an item is unique. -/
theorem Distinct.eq {p : UInt32} (hd : inv.Distinct) (ha : inv.get? a = some p)
    (hb : inv.get? b = some q) (h : sameId a b = true) : a = b :=
  hd a b p q ha hb h

/-- The ledger shows what is held under the spelling in use. -/
theorem ledger_of_get? (hd : inv.Distinct) (ha : inv.get? a = some q)
    (hkey : foldCase a = foldCase item) : inv.ledger (foldCase item) = q.toNat := by
  have hmem : (a, q) ∈ inv.entries := IdMap.mem_entries_iff.2 ha
  unfold ledger
  cases hfind : inv.entries.find? fun e => foldCase e.1 == foldCase item with
  | none =>
      have hnot := List.find?_eq_none.1 hfind _ hmem
      simp [hkey] at hnot
  | some e =>
      obtain ⟨b, p⟩ := e
      -- the entry that is found is the only one of the item
      have hb : inv.get? b = some p := IdMap.mem_entries_iff.1 (List.mem_of_find?_eq_some hfind)
      have hsame : foldCase b = foldCase item := by simpa using List.find?_some hfind
      obtain rfl := hd.eq ha hb (Text.sameId_iff.2 (hkey.trans hsame.symm))
      obtain rfl := Option.some.inj (ha.symm.trans hb)
      rfl

/-- An item that is held under no spelling is not in the ledger. -/
theorem ledger_of_absent {key : String} (h : ∀ {a q}, inv.get? a = some q → foldCase a ≠ key) :
    inv.ledger key = 0 := by
  unfold ledger
  have hnone : (inv.entries.find? fun e => foldCase e.1 == key) = none := by
    refine List.find?_eq_none.2 fun e he => ?_
    simpa using h (IdMap.mem_entries_iff.1 he)
  rw [hnone]
  rfl

/-- Inventories that hold the same of every spelling of an item agree in the ledger. -/
theorem ledger_congr {inv' : Inventory} {key : String} (hd : inv.Distinct) (hd' : inv'.Distinct)
    (h : ∀ a, foldCase a = key → inv'.get? a = inv.get? a) : inv'.ledger key = inv.ledger key := by
  by_cases hheld : ∃ a q, inv.get? a = some q ∧ foldCase a = key
  · obtain ⟨a, q, ha, rfl⟩ := hheld
    rw [ledger_of_get? hd ha rfl, ledger_of_get? hd' ((h a rfl).trans ha) rfl]
  · have hnone : ∀ {a q}, inv.get? a = some q → foldCase a ≠ key :=
      fun ha hkey => hheld ⟨_, _, ha, hkey⟩
    rw [ledger_of_absent hnone, ledger_of_absent fun ha hkey => ?_]
    rw [h _ hkey] at ha
    exact hnone ha hkey

/-- Setting the quantity of an item under the spelling in use. -/
theorem ledger_insert (hd : inv.Distinct) (hd' : Distinct (inv.insert a q)) (key : String) :
    ledger (inv.insert a q) key = if key = foldCase a then q.toNat else inv.ledger key := by
  split
  · next hkey =>
      subst hkey
      exact ledger_of_get? hd' (by rw [IdMap.get?_insert, if_pos rfl]) rfl
  · next hkey =>
      refine ledger_congr hd hd' fun b hb => ?_
      rw [IdMap.get?_insert, if_neg]
      rintro rfl
      exact hkey hb.symm

/-- Setting a quantity keeps an inventory distinct if the item has no other spelling. -/
theorem distinct_insert (hd : inv.Distinct)
    (h : ∀ {b p}, inv.get? b = some p → sameId b a = true → b = a) :
    Distinct (inv.insert a q) := by
  intro b c p r hb hc hsame
  rw [IdMap.get?_insert] at hb hc
  split at hb <;> split at hc
  · next hba hca => rw [hba, hca]
  · next hba _ =>
      subst hba
      exact (h hc (Text.sameId_comm c b ▸ hsame)).symm
  · next _ hca =>
      subst hca
      exact h hb hsame
  · exact hd.eq hb hc hsame

theorem distinct_erase (hd : inv.Distinct) (a : String) : Distinct (inv.erase a) := by
  intro b c p r hb hc hsame
  rw [IdMap.get?_erase] at hb hc
  split at hb
  · cases hb
  · split at hc
    · cases hc
    · exact hd.eq hb hc hsame

/-- Either an item is held under the spelling that is found, or it is not held at all. -/
theorem spelling_cases (inv : Inventory) (item : String) :
    (∃ q, inv.get? (inv.spelling item) = some q ∧
        foldCase (inv.spelling item) = foldCase item) ∨
      (inv.spelling item = item ∧ ∀ {a q}, inv.get? a = some q → foldCase a ≠ foldCase item) := by
  unfold spelling
  cases hfind : inv.keys.find? fun held => sameId held item with
  | some a =>
      obtain ⟨e, he, rfl⟩ := List.mem_map.1 (List.mem_of_find?_eq_some hfind)
      have hsame := List.find?_some hfind
      exact .inl ⟨e.2, IdMap.mem_entries_iff.1 he, Text.sameId_iff.1 hsame⟩
  | none =>
      refine .inr ⟨rfl, fun {a q} ha hkey => ?_⟩
      have hmem : a ∈ inv.keys := List.mem_map.2 ⟨(a, q), IdMap.mem_entries_iff.2 ha, rfl⟩
      exact List.find?_eq_none.1 hfind a hmem (Text.sameId_iff.2 hkey)

/-- The largest of equal quantities. -/
theorem foldl_max_eq {l : List UInt32} (h : ∀ p ∈ l, p = q) : l.foldl max q = q := by
  induction l with
  | nil => rfl
  | cons p rest ih =>
      have hmax : max q p = q := by
        rw [h p List.mem_cons_self]
        exact ite_self q
      rw [List.foldl_cons, hmax]
      exact ih fun x hx => h x (List.mem_cons_of_mem p hx)

end Entries

/-! ## Reading, adding and taking -/

section Operations

variable {inv : Inventory} (hd : inv.Distinct)

include hd

/-- **A quantity is read off the ledger**, whatever the spelling. -/
theorem toNat_quantity (item : String) :
    (inv.quantity item).toNat = inv.ledger (foldCase item) := by
  unfold quantity
  cases hget : inv.get? item with
  | some q => exact (ledger_of_get? hd hget rfl).symm
  | none =>
      simp only
      -- all entries of the item hold the quantity that the ledger shows
      have hall : ∀ q ∈ (inv.entries.filter fun e => sameId e.1 item).map (·.2),
          q.toNat = inv.ledger (foldCase item) := by
        intro q hq
        obtain ⟨e, he, rfl⟩ := List.mem_map.1 hq
        obtain ⟨hmem, hsame⟩ := List.mem_filter.1 he
        exact (ledger_of_get? hd (IdMap.mem_entries_iff.1 hmem) (Text.sameId_iff.1 hsame)).symm
      cases hlist : (inv.entries.filter fun e => sameId e.1 item).map (·.2) with
      | nil =>
          have hnone := List.map_eq_nil_iff.1 hlist
          refine (ledger_of_absent fun {a q} ha hkey => ?_).symm
          have hmem : (a, q) ∈ inv.entries.filter fun e => sameId e.1 item :=
            List.mem_filter.2 ⟨IdMap.mem_entries_iff.2 ha, Text.sameId_iff.2 hkey⟩
          rw [hnone] at hmem
          cases hmem
      | cons q rest =>
          rw [hlist] at hall
          have hfirst := hall q List.mem_cons_self
          have hrest : ∀ p ∈ rest, p = q := fun p hp =>
            UInt32.toNat_inj.1 ((hall p (List.mem_cons_of_mem q hp)).trans hfirst.symm)
          have hfold : (q :: rest).foldl max 0 = q := by
            have hzero : max 0 q = q := if_pos UInt32.zero_le
            rw [List.foldl_cons, hzero]
            exact foldl_max_eq hrest
          rw [hfold, hfirst]

/-- Adding keeps an inventory distinct. -/
theorem distinct_add (item : String) (n : UInt32) : (inv.add item n).Distinct := by
  refine distinct_insert hd fun {b p} hb hsame => ?_
  rcases spelling_cases inv item with ⟨q, hq, -⟩ | ⟨heq, hnone⟩
  · exact hd.eq hb hq hsame
  · rw [heq] at hsame ⊢
    exact absurd (Text.sameId_iff.1 hsame) (hnone hb)

/-- **Adding is an entry in the ledger.** -/
theorem ledger_add (item : String) (n : UInt32) :
    (inv.add item n).ledger = inv.ledger.give item n.toNat := by
  have hafter := distinct_add hd item n
  -- what was held under the spelling is what the ledger shows
  have hheld : foldCase (inv.spelling item) = foldCase item ∧
      ((inv.get? (inv.spelling item)).getD 0).toNat = inv.ledger (foldCase item) := by
    rcases spelling_cases inv item with ⟨q, hq, hkey⟩ | ⟨heq, hnone⟩
    · rw [hq, ledger_of_get? hd hq hkey]
      exact ⟨hkey, rfl⟩
    · refine ⟨by rw [heq], ?_⟩
      rw [ledger_of_absent hnone, heq]
      cases hget : inv.get? item with
      | none => rfl
      | some q => exact absurd rfl (hnone hget)
  funext key
  rw [add, ledger_insert hd hafter, hheld.1, Quantity.toNat_sum, hheld.2, Ledger.give]
  split
  · next hkey => rw [hkey, Ledger.ceiling]
  · rfl

/-- An entry that a taking draws from holds what the ledger shows. -/
theorem source?_eq_some {item a : String} {n held : UInt32}
    (h : inv.source? item n = some (a, held)) :
    inv.get? a = some held ∧ foldCase a = foldCase item ∧
      held.toNat = inv.ledger (foldCase item) ∧ n.toNat ≤ held.toNat := by
  have hmem := List.mem_of_find?_eq_some h
  have hfound := List.find?_some h
  simp only [Bool.and_eq_true, decide_eq_true_eq] at hfound
  have hget : inv.get? a = some held := IdMap.mem_entries_iff.1 hmem
  have hkey : foldCase a = foldCase item := Text.sameId_iff.1 hfound.1
  exact ⟨hget, hkey, (ledger_of_get? hd hget hkey).symm, UInt32.le_iff_toNat_le.1 hfound.2⟩

/-- **Something can be taken exactly if the ledger shows that much.** -/
theorem isSome_take?_iff {item : String} {n : UInt32} (hn : 1 ≤ n) :
    (inv.take? item n).isSome = true ↔ n.toNat ≤ inv.ledger (foldCase item) := by
  rw [take?, Option.isSome_map]
  cases hsource : inv.source? item n with
  | some e =>
      obtain ⟨-, -, hheld, hle⟩ := source?_eq_some hd hsource
      exact ⟨fun _ => hheld ▸ hle, fun _ => rfl⟩
  | none =>
      refine ⟨fun h => Bool.noConfusion h, fun hle => ?_⟩
      have hpos : 0 < n.toNat := UInt32.le_iff_toNat_le.1 hn
      -- what the ledger shows is held under some spelling, and an entry with enough is found
      by_cases hheld : ∃ a q, inv.get? a = some q ∧ foldCase a = foldCase item
      · obtain ⟨a, q, ha, hkey⟩ := hheld
        have hnot := List.find?_eq_none.1 hsource (a, q) (IdMap.mem_entries_iff.2 ha)
        rw [ledger_of_get? hd ha hkey] at hle
        simp [Text.sameId_iff.2 hkey, UInt32.le_iff_toNat_le.2 hle] at hnot
      · rw [ledger_of_absent fun ha hkey => hheld ⟨_, _, ha, hkey⟩] at hle
        omega

/-- **What is taken is taken out of the ledger**, and the inventory stays distinct. -/
theorem ledger_take? {item : String} {n : UInt32} {inv' : Inventory}
    (h : inv.take? item n = some inv') :
    inv'.Distinct ∧ n.toNat ≤ inv.ledger (foldCase item) ∧
      inv'.ledger = inv.ledger.take item n.toNat := by
  rw [take?, Option.map_eq_some_iff] at h
  obtain ⟨⟨a, held⟩, hsource, hafter⟩ := h
  obtain ⟨hget, hkey, hheld, hle⟩ := source?_eq_some hd hsource
  have hrest : (held - n).toNat = held.toNat - n.toNat :=
    UInt32.toNat_sub_of_le held n (UInt32.le_iff_toNat_le.2 hle)
  simp only at hafter
  split at hafter
  -- an entry that is used up goes
  · next hzero =>
      subst hafter
      have hdistinct : Distinct (inv.erase a) := distinct_erase hd a
      refine ⟨hdistinct, hheld ▸ hle, ?_⟩
      funext key
      rw [Ledger.take]
      split
      · next hk =>
          subst hk
          have hnone : ∀ {b q}, (inv.erase a).get? b = some q → foldCase b ≠ foldCase item := by
            intro b q hb hbkey
            rw [IdMap.get?_erase] at hb
            split at hb
            · cases hb
            · next hne => exact hne (hd.eq hb hget (Text.sameId_iff.2 (hbkey.trans hkey.symm)))
          rw [ledger_of_absent hnone, ← hheld, ← hrest, hzero]
          rfl
      · next hk =>
          refine ledger_congr hd hdistinct fun b hb => ?_
          rw [IdMap.get?_erase, if_neg]
          rintro rfl
          exact hk (hb.symm.trans hkey)
  · subst hafter
    have hdistinct : Distinct (inv.insert a (held - n)) :=
      distinct_insert hd fun hb hsame => hd.eq hb hget hsame
    refine ⟨hdistinct, hheld ▸ hle, ?_⟩
    funext key
    rw [ledger_insert hd hdistinct, hkey, hrest, hheld, Ledger.take]
    split
    · next hk => rw [hk]
    · rfl

end Operations

end Inventory

/-! ## Effects on a game -/

namespace Game

variable {g : Game}

/-- Adding items one line after the other. -/
theorem ledger_addItems (lines : List RewardItem) (hd : g.state.inventory.Distinct) :
    let g' := lines.foldl (fun g i => g.addItem i.item i.quantity) g
    g'.state.inventory.Distinct ∧ g'.state.inventory.ledger =
      lines.foldl (fun l i => l.give i.item i.quantity.toNat) g.state.inventory.ledger := by
  induction lines generalizing g with
  | nil => exact ⟨hd, rfl⟩
  | cons line rest ih =>
      have hline : (g.addItem line.item line.quantity).state.inventory.Distinct :=
        Inventory.distinct_add hd line.item line.quantity
      have hledger : (g.addItem line.item line.quantity).state.inventory.ledger =
          g.state.inventory.ledger.give line.item line.quantity.toNat :=
        Inventory.ledger_add hd line.item line.quantity
      obtain ⟨hdistinct, hrest⟩ := ih hline
      rw [hledger] at hrest
      exact ⟨hdistinct, hrest⟩

/-- **An effect does to the inventory what is booked in its ledger**, and keeps it distinct. -/
theorem ledger_apply (hd : g.state.inventory.Distinct) (x : Effect) :
    (g.apply x).state.inventory.Distinct ∧
      (g.apply x).state.inventory.ledger = g.state.inventory.ledger.book x := by
  cases x with
  | giveItem item n => exact ⟨Inventory.distinct_add hd item n, Inventory.ledger_add hd item n⟩
  | grantReward r =>
      simp only [apply, grant]
      split
      -- an empty reward has no lines
      · next hempty =>
          have hlines : r.items = [] := by
            simp only [Reward.isEmpty, Bool.and_eq_true, List.isEmpty_iff] at hempty
            exact hempty.2
          refine ⟨hd, ?_⟩
          rw [Ledger.book, hlines]
          rfl
      · exact ledger_addItems r.items (g := g.updateProgress _) hd
  | takeItem item n =>
      simp only [apply]
      cases htake : g.state.inventory.take? item n with
      | some inv =>
          obtain ⟨hdistinct, hle, hledger⟩ := Inventory.ledger_take? hd htake
          refine ⟨hdistinct, ?_⟩
          rw [Ledger.book, if_pos hle]
          exact hledger
      | none =>
          refine ⟨hd, ?_⟩
          simp only [Ledger.book]
          split
          · next hle =>
              -- to take nothing of an item that is not held is refused as well
              rcases Nat.eq_zero_or_pos n.toNat with hzero | hpos
              · funext key
                simp [Ledger.take, hzero]
              · have hone : (1 : UInt32) ≤ n := UInt32.le_iff_toNat_le.2 hpos
                have hsome := (Inventory.isSome_take?_iff hd hone).2 hle
                rw [htake] at hsome
                cases hsome
          · rfl
  | failQuest quest reason =>
      simp only [apply]
      split <;> exact ⟨hd, rfl⟩
  | advanceQuestStage quest stage => cases quest <;> cases stage <;> exact ⟨hd, rfl⟩
  | updateQuestTask quest task => cases quest <;> cases task <;> exact ⟨hd, rfl⟩
  | _ => exact ⟨hd, rfl⟩

end Game

end Narrative
