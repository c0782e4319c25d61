import Narrative.Json

set_option autoImplicit false

/-!
# Load errors

Everything that can go wrong before an engine runs. Dispatching never fails: content
that makes no sense has no effect.
-/

namespace Narrative

/-- Why a configuration or a catalog was refused. -/
inductive LoadError where
  /-- The text is not a configuration. -/
  | configText
  /-- The configuration allows no dispatch at all. -/
  | zeroDepth
  /-- The text is not a JSON document. -/
  | catalogText
  /-- The document is neither a list of events nor an object that wraps one. -/
  | catalogShape
  /-- Two events share an id that is not blank. -/
  | duplicateEvent (id : String)
  /-- The file is missing or not UTF-8 text. -/
  | unreadable
deriving DecidableEq, Repr

namespace LoadError

/-- The class an error is reported under. -/
def kind : LoadError → String
  | .configText | .zeroDepth => "Config"
  | .catalogText | .catalogShape => "Definition"
  | .duplicateEvent _ => "DuplicateEventId"
  | .unreadable => "Io"

/-- The wording of an error, for the errors that have a fixed one. -/
def message? : LoadError → Option String
  | .zeroDepth => some "Configuration error: dispatch.max_depth must be at least 1"
  | .catalogShape =>
      some "Definition error: data did not match any variant of untagged enum CatalogDocument"
  | .duplicateEvent id => some ("Duplicate event id in catalog: " ++ id)
  | .configText | .catalogText | .unreadable => none

end LoadError

/-- An error is shown by its kind and, if it has one, its wording. -/
instance : ToJson LoadError :=
  ⟨fun e => .object (("error", toJson e.kind) ::
    match e.message? with
    | some m => [("message", toJson m)]
    | none => [])⟩

end Narrative
