import Narrative.Text
import Narrative.IdMap

set_option autoImplicit false

/-!
# Item quantities and inventories

An inventory maps item ids to quantities. Its keys keep the spelling under which an
item first arrived, while every look-up ignores ASCII case: adding uses the held
spelling, taking removes an entry that reaches zero, and an addition stops at the
largest quantity.
-/

namespace Narrative

namespace Quantity

/-- An authored quantity: one if absent, and never below one. -/
def normalize (q : Option UInt32) : UInt32 :=
  max (q.getD 1) 1

/-- The sum of two quantities, or the largest quantity if the sum is larger. -/
def sum (a b : UInt32) : UInt32 :=
  UInt32.ofNat (min (a.toNat + b.toNat) (UInt32.size - 1))

/-- A sum of quantities stops at the largest one. -/
theorem toNat_sum (a b : UInt32) : (sum a b).toNat = min (a.toNat + b.toNat) (UInt32.size - 1) := by
  simp only [sum, UInt32.toNat_ofNat', UInt32.size]
  omega

/-- An authored quantity is at least one. -/
theorem one_le_normalize (q : Option UInt32) : 1 ≤ normalize q := by
  simp only [normalize, Max.max]
  split
  · exact UInt32.le_refl 1
  · next h => exact UInt32.le_of_lt (UInt32.not_le.1 h)

end Quantity

/-- Held quantities by item id. -/
abbrev Inventory := IdMap UInt32

namespace Inventory

open Text (sameId)

/-- The quantity held of an item: that of its exact id, else the largest of the ids that
differ in case only, else zero. -/
def quantity (inv : Inventory) (item : String) : UInt32 :=
  match inv.get? item with
  | some q => q
  | none => ((inv.entries.filter fun e => sameId e.1 item).map (·.2)).foldl max 0

/-- The spelling under which an item is held, or the given one if it is not. Of several held ids
that differ in case only it is the first in the order of ids; with a hash map in the place of the
inventory it is whichever the map shows first. -/
def spelling (inv : Inventory) (item : String) : String :=
  (inv.keys.find? fun held => sameId held item).getD item

/-- The inventory after some of an item was added. -/
def add (inv : Inventory) (item : String) (q : UInt32) : Inventory :=
  -- the held spelling wins, so that no item gets two entries
  let key := inv.spelling item
  inv.insert key (Quantity.sum ((inv.get? key).getD 0) q)

/-- The entry that a taking would draw from: one of the item, with enough in it. Of several held ids
that differ in case only it is the first in the order of ids; with a hash map in the place of the
inventory it is whichever the map shows first. -/
def source? (inv : Inventory) (item : String) (q : UInt32) : Option (String × UInt32) :=
  inv.entries.find? fun e => sameId e.1 item && decide (q ≤ e.2)

/-- The inventory after some of an item was taken, if enough is held. -/
def take? (inv : Inventory) (item : String) (q : UInt32) : Option Inventory :=
  (inv.source? item q).map fun (key, held) =>
    if held - q = 0 then inv.erase key else inv.insert key (held - q)

end Inventory

end Narrative
