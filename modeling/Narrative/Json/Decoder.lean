import Narrative.Json
import Narrative.Record

set_option autoImplicit false

/-!
# Decoding JSON values

A decoder turns a JSON value into a value of the library, or refuses it. It is told
how many levels of arrays and objects it may still open; a document starts with
`Json.maxLevels` of them. Parts that no decoder visits are not counted.
-/

namespace Narrative

/-- Decodes a JSON value that may open a number of levels. -/
abbrev Decoder (α : Type) := (levels : Nat) → Json → Option α

namespace Json

/-- The levels of nesting that a document may use. -/
def maxLevels : Nat := 127

end Json

namespace Decoder

variable {α : Type}

/-- Decodes a string. -/
def text : Decoder String
  | _, .string s => some s
  | _, _ => none

/-- Decodes a truth value. -/
def flag : Decoder Bool
  | _, .bool b => some b
  | _, _ => none

/-- Decodes an unsigned 32-bit integer. -/
def quantity : Decoder UInt32
  | _, .int n => if 0 ≤ n ∧ n < UInt32.size then some (UInt32.ofNat n.toNat) else none
  | _, _ => none

/-- Decodes a signed 64-bit integer. -/
def amount : Decoder Int64
  | _, .int n => if Int64.minValue.toInt ≤ n ∧ n ≤ Int64.maxValue.toInt then some (Int64.ofInt n) else none
  | _, _ => none

/-- Decodes any number to single precision. -/
def gain : Decoder Gain
  | _, .int n => Gain.ofInt? n
  | _, .decimal d => d.toDouble?.map Gain.ofDouble
  | _, _ => none

/-- Decodes a value that may be `null`. -/
def optional (read : Decoder α) : Decoder (Option α)
  | _, .null => some none
  | levels, j => (read levels j).map some

/-- Decodes an array. -/
def list (read : Decoder α) : Decoder (List α)
  | levels + 1, .array items => items.mapM (read levels)
  | _, _ => none

/-- Decodes the members of an object. -/
def members (read : Decoder α) : Decoder (List (String × α))
  | levels + 1, .object ms => ms.mapM fun (k, v) => (read levels v).map (k, ·)
  | _, _ => none

/-- Decodes one of several names, written as a string or as an object whose only member has
that name and a value without content. -/
def choice (blank : Json → Bool) (choices : List (String × α)) : Decoder α
  | _, .string s => (choices.find? (·.1 == s)).map (·.2)
  | _ + 1, .object [(s, v)] => if blank v then (choices.find? (·.1 == s)).map (·.2) else none
  | _, _ => none

/-- Decodes a record by name or by position. -/
def record (body : (levels : Nat) → FieldReader Json α) : Decoder α
  | levels + 1, .object ms => (body levels).readFrom false (.named ms)
  | levels + 1, .array items => (body levels).readFrom false (.listed items)
  | _, _ => none

/-- Decodes a whole document. -/
def document (read : Decoder α) (j : Json) : Option α := read Json.maxLevels j

end Decoder

end Narrative
