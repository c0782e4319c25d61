set_option autoImplicit false

/-!
# Records in documents

A record stands in a document either by name, as members in any order, or by
position, as a list of its fields in declared order. Unknown names are ignored and
a known name given twice is refused. A field left out takes its default; an
optional field without a default may be left out by name but not by position.
-/

namespace Narrative

/-- A record as a document gives it. -/
inductive Fields (V : Type) where
  | named (members : List (String × V))
  | listed (items : List V)

/-- What a document gives for one field. -/
inductive Slot (V : Type) where
  | given (v : V)
  | unnamed
  | unlisted

/-- Reads the fields of a record one after the other, in declared order. -/
abbrev FieldReader (V : Type) := StateT (Fields V) Option

namespace FieldReader

variable {V α : Type}

/-- Refuses the record. -/
def refuse : FieldReader V α := fun _ => none

/-- What the record gives for the next field, which has one name or several. -/
def slot (names : List String) : FieldReader V (Slot V)
  | .named members =>
      match members.filter fun m => names.contains m.1 with
      | [] => some (.unnamed, .named members)
      | [(_, v)] => some (.given v, .named members)
      | _ => none
  | .listed [] => some (.unlisted, .listed [])
  | .listed (v :: rest) => some (.given v, .listed rest)

/-- A field with a default. -/
def field (name : String) (default : α) (read : V → Option α) : FieldReader V α := do
  match ← slot [name] with
  | .given v => StateT.lift (read v)
  | _ => pure default

/-- A field that must be given, under any of its names. -/
def required (names : List String) (read : V → Option α) : FieldReader V α := do
  match ← slot names with
  | .given v => StateT.lift (read v)
  | _ => refuse

/-- An optional field that a record by position must spell out. -/
def spelled (name : String) (read : V → Option (Option α)) : FieldReader V (Option α) := do
  match ← slot [name] with
  | .given v => StateT.lift (read v)
  | .unnamed => pure none
  | .unlisted => refuse

/-- Reads a record, allowing or refusing items after the last field. -/
def readFrom (body : FieldReader V α) (surplus : Bool) (fields : Fields V) : Option α :=
  match body fields with
  | some (a, .listed (_ :: _)) => if surplus then some a else none
  | some (a, _) => some a
  | none => none

end FieldReader

end Narrative
