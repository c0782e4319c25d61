import Narrative.Play
import Narrative.TokenRack
import Narrative.Text.Quoted

set_option autoImplicit false

/-!
# Diagnostic texts

One-line descriptions of engines and tokens, for logs and consoles.
-/

namespace Narrative

/-- A named group of described fields. -/
def describeFields (name : String) (fields : List (String × String)) (more : Bool) : String :=
  let shown := fields.map fun (k, v) => k ++ ": " ++ v
  name ++ " \x7b " ++ ", ".intercalate (if more then shown ++ [".."] else shown) ++ " \x7d"

/-- A described truth value. -/
def describeFlag (b : Bool) : String := if b then "true" else "false"

namespace UnknownPolicy

/-- A described policy. -/
def describe : UnknownPolicy → String
  | .allow => "Allow"
  | .deny => "Deny"

end UnknownPolicy

namespace EngineConfig

/-- The described settings of an engine. -/
def describe (c : EngineConfig) : String :=
  describeFields "EngineConfig" [
    ("general", describeFields "GeneralConfig" [
      ("log_level", Text.Quoted.encode c.general.logLevel)] false),
    ("dispatch", describeFields "DispatchConfig" [
      ("max_depth", toString c.dispatch.maxDepth.toNat),
      ("unknown_triggers", c.dispatch.unknownTriggers.describe),
      ("unknown_conditions", c.dispatch.unknownConditions.describe)] false),
    ("diagnostics", describeFields "DiagnosticsConfig" [
      ("warn_unknown_types", describeFlag c.diagnostics.warnUnknownTypes),
      ("trace_dispatch", describeFlag c.diagnostics.traceDispatch)] false)] false

end EngineConfig

namespace Engine

/-- A described engine between dispatches. -/
def describe (e : Engine) : String :=
  describeFields "NarrativeEngine" [
    ("events", toString e.catalog.events.length),
    ("depth", "0"),
    ("config", e.config.describe)] true

end Engine

namespace RackToken

/-- A described token. -/
def describe (t : RackToken) : String :=
  describeFields "Completion" [
    ("label", Text.Quoted.encode t.label),
    ("pending", describeFlag t.pending)] false

end RackToken

end Narrative
