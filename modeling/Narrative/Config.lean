import Narrative.Json.Decoder
import Narrative.LoadError

set_option autoImplicit false

/-!
# Engine configuration

The settings of an engine, with their defaults. `EngineConfig.read` reads them from
any document format that can be opened as records (`Format`); every section and
every setting may be left out.
-/

namespace Narrative

/-- What an unknown trigger or condition type evaluates to. -/
inductive UnknownPolicy where
  | allow
  | deny
deriving DecidableEq, Repr, Inhabited

namespace UnknownPolicy

/-- The truth value of an unknown trigger or condition. -/
def verdict : UnknownPolicy → Bool
  | .allow => true
  | .deny => false

/-- The name of a policy. -/
def name : UnknownPolicy → String
  | .allow => "allow"
  | .deny => "deny"

/-- The policies by name. -/
def choices : List (String × UnknownPolicy) := [("allow", .allow), ("deny", .deny)]

end UnknownPolicy

/-- General settings. -/
structure GeneralConfig where
  logLevel : String := "info"
deriving DecidableEq, Repr, Inhabited

/-- Settings of trigger dispatch. -/
structure DispatchConfig where
  maxDepth : UInt32 := 8
  unknownTriggers : UnknownPolicy := .allow
  unknownConditions : UnknownPolicy := .allow
deriving DecidableEq, Repr, Inhabited

/-- Settings of diagnostic logging. -/
structure DiagnosticsConfig where
  warnUnknownTypes : Bool := true
  traceDispatch : Bool := false
deriving DecidableEq, Repr, Inhabited

/-- The settings of an engine. -/
structure EngineConfig where
  general : GeneralConfig := {}
  dispatch : DispatchConfig := {}
  diagnostics : DiagnosticsConfig := {}
deriving DecidableEq, Repr, Inhabited

/-- How the values of a document format are read. -/
structure Format (V : Type) where
  text : V → Option String
  flag : V → Option Bool
  quantity : V → Option UInt32
  choice : {α : Type} → List (String × α) → V → Option α
  record : {α : Type} → FieldReader V α → V → Option α

/-- JSON as a configuration format. -/
def Format.json : Format Json where
  text := Decoder.text Json.maxLevels
  flag := Decoder.flag Json.maxLevels
  quantity := Decoder.quantity Json.maxLevels
  choice := fun choices => Decoder.choice (· matches .null) choices Json.maxLevels
  record := fun body => Decoder.record (fun _ => body) Json.maxLevels

variable {V : Type}

/-- Reads the section of general settings. -/
def GeneralConfig.read (format : Format V) : V → Option GeneralConfig :=
  format.record do
    let logLevel ← FieldReader.field "log_level" "info" format.text
    return { logLevel }

/-- Reads the section of dispatch settings. -/
def DispatchConfig.read (format : Format V) : V → Option DispatchConfig :=
  format.record do
    let maxDepth ← FieldReader.field "max_depth" 8 format.quantity
    let policy name := FieldReader.field name .allow (format.choice UnknownPolicy.choices)
    let unknownTriggers ← policy "unknown_triggers"
    let unknownConditions ← policy "unknown_conditions"
    return { maxDepth, unknownTriggers, unknownConditions }

/-- Reads the section of diagnostic settings. -/
def DiagnosticsConfig.read (format : Format V) : V → Option DiagnosticsConfig :=
  format.record do
    let warnUnknownTypes ← FieldReader.field "warn_unknown_types" true format.flag
    let traceDispatch ← FieldReader.field "trace_dispatch" false format.flag
    return { warnUnknownTypes, traceDispatch }

namespace EngineConfig

/-- Reads the settings of an engine. -/
def read (format : Format V) : V → Option EngineConfig :=
  format.record do
    let general ← FieldReader.field "general" {} (GeneralConfig.read format)
    let dispatch ← FieldReader.field "dispatch" {} (DispatchConfig.read format)
    let diagnostics ← FieldReader.field "diagnostics" {} (DiagnosticsConfig.read format)
    return { general, dispatch, diagnostics }

/-- Decodes the settings of an engine from JSON. -/
def ofJson? (j : Json) : Option EngineConfig := read .json j

/-- Refuses settings under which every dispatch would be refused. -/
def validate (c : EngineConfig) : Except LoadError Unit :=
  if c.dispatch.maxDepth = 0 then .error .zeroDepth else .ok ()

end EngineConfig

instance : ToJson UnknownPolicy := ⟨fun p => toJson p.name⟩

instance : ToJson EngineConfig :=
  ⟨fun c => .object [
    ("general", .object [("log_level", toJson c.general.logLevel)]),
    ("dispatch", .object [
      ("max_depth", toJson c.dispatch.maxDepth),
      ("unknown_triggers", toJson c.dispatch.unknownTriggers),
      ("unknown_conditions", toJson c.dispatch.unknownConditions)]),
    ("diagnostics", .object [
      ("warn_unknown_types", toJson c.diagnostics.warnUnknownTypes),
      ("trace_dispatch", toJson c.diagnostics.traceDispatch)])]⟩

end Narrative
