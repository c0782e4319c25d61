import Narrative.Json
import Narrative.Decimal.Shortest

set_option autoImplicit false

/-!
# Canonical documents

The form of a document that was taken apart and written again: no object repeats a key,
an integer fits 64 bits, and any other numeral is the shortest one of its double.
-/

namespace Narrative.Json

/-- Drops every member whose key comes again later. -/
def lastMembers : List (String × Json) → List (String × Json)
  | [] => []
  | (k, v) :: rest => if rest.any (·.1 == k) then lastMembers rest else (k, v) :: lastMembers rest

/-- The shortest numeral with the same double; a number beyond the largest double stays. -/
def canonicalNumeral (d : Decimal) : Decimal :=
  match d.toDouble? with
  | some x => .ofDouble x
  | none => d

mutual

/-- The canonical form of a document; the last member of each key stays. -/
def canonical : Json → Json
  | .int n => if Decimal.isWord n then .int n else .decimal (canonicalNumeral (.ofInt n))
  | .decimal d => .decimal (canonicalNumeral d)
  | .array items => .array (canonicalItems items)
  | .object members => .object (lastMembers (canonicalMembers members))
  | j => j

/-- `canonical` for the items of an array. -/
def canonicalItems : List Json → List Json
  | [] => []
  | item :: rest => canonical item :: canonicalItems rest

/-- `canonical` for the members of an object, whose keys it leaves alone. -/
def canonicalMembers : List (String × Json) → List (String × Json)
  | [] => []
  | (k, v) :: rest => (k, canonical v) :: canonicalMembers rest

end

end Narrative.Json
