import Narrative.Decimal

set_option autoImplicit false

/-!
# JSON values

A document as a tree. Objects keep their members in written order, repeated keys
included, because a record refuses a repeated key while a map lets the last one
win. Integers and other numerals are told apart: `1` is an integer, `1.0` and `-0`
are not.

`Json.flawed` stands for a text with an unpaired surrogate escape, or for an
object with such a key: it is well delimited but has no value, so it may stand
only where nobody looks.
-/

namespace Narrative

/-- A JSON document. -/
inductive Json where
  | null
  | bool (b : Bool)
  | int (n : Int)
  | decimal (d : Decimal)
  | string (s : String)
  | array (items : List Json)
  | object (members : List (String × Json))
  | flawed
deriving Inhabited

namespace Json

mutual

/-- Whether every part of a document has a value and nests within a number of levels. -/
def sound (levels : Nat) : Json → Bool
  | .flawed => false
  | .decimal d => d.toDouble?.isSome
  -- an integer of more than 64 bits has to fit a double
  | .int n => (Gain.ofInt? n).isSome
  | .array items => decide (0 < levels) && soundItems (levels - 1) items
  | .object members => decide (0 < levels) && soundMembers (levels - 1) members
  | _ => true

/-- `sound` for the items of an array. -/
def soundItems (levels : Nat) : List Json → Bool
  | [] => true
  | item :: rest => sound levels item && soundItems levels rest

/-- `sound` for the members of an object. -/
def soundMembers (levels : Nat) : List (String × Json) → Bool
  | [] => true
  | (_, value) :: rest => sound levels value && soundMembers levels rest

end

/-- The last member of an object with a key. -/
def member? (key : String) : Json → Option Json
  | .object members => (members.reverse.find? (·.1 == key)).map (·.2)
  | _ => none

/-! ## Writing -/

/-- Four hexadecimal digits. -/
def hexQuad (n : Nat) : String :=
  let digits := Nat.toDigits 16 n
  String.ofList (List.replicate (4 - digits.length) '0' ++ digits)

/-- A character inside a JSON string. -/
def escapeChar (c : Char) : String :=
  if c == '"' then "\\\""
  else if c == '\\' then "\\\\"
  else if c.toNat < 0x20 then "\\u" ++ hexQuad c.toNat
  else c.toString

/-- A JSON string. -/
def quote (s : String) : String :=
  "\"" ++ String.join (s.toList.map escapeChar) ++ "\""

/-- The digits of a numeral. -/
def digitText (ds : List Nat) : String :=
  String.ofList (ds.map fun d => Char.ofNat ('0'.toNat + d))

/-- A numeral with the digits it has. -/
def decimalText (d : Decimal) : String :=
  let sign := if d.negative then "-" else ""
  let fraction := if d.fraction.isEmpty then "" else "." ++ digitText d.fraction
  let exponent := match d.exponent with
    | some e => "e" ++ toString e
    | none => ""
  sign ++ digitText d.whole ++ fraction ++ exponent

mutual

/-- The compact text of a document. -/
def render : Json → String
  | .null => "null"
  | .bool true => "true"
  | .bool false => "false"
  | .int n => toString n
  | .decimal d => decimalText d
  | .string s => quote s
  | .array items => "[" ++ ",".intercalate (renderItems items) ++ "]"
  | .object members => "\x7b" ++ ",".intercalate (renderMembers members) ++ "\x7d"
  | .flawed => "\"\\ud800\""

/-- The texts of the items of an array. -/
def renderItems : List Json → List String
  | [] => []
  | item :: rest => render item :: renderItems rest

/-- The texts of the members of an object. -/
def renderMembers : List (String × Json) → List String
  | [] => []
  | (k, v) :: rest => (quote k ++ ":" ++ render v) :: renderMembers rest

end

end Json

/-- Values that are shown as JSON documents. -/
class ToJson (α : Type) where
  toJson : α → Json

export ToJson (toJson)

instance : ToJson Json := ⟨id⟩
instance : ToJson String := ⟨.string⟩
instance : ToJson Bool := ⟨.bool⟩
instance : ToJson Nat := ⟨fun n => .int n⟩
instance : ToJson UInt32 := ⟨fun n => .int n.toNat⟩
instance : ToJson Int64 := ⟨fun n => .int n.toInt⟩

instance {α : Type} [ToJson α] : ToJson (Option α) :=
  ⟨fun
    | some a => toJson a
    | none => .null⟩

instance {α : Type} [ToJson α] : ToJson (List α) := ⟨fun as => .array (as.map toJson)⟩

end Narrative
