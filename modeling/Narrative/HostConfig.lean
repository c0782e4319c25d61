import Narrative.Config
import Narrative.Toml.Reader

set_option autoImplicit false

/-!
# Host configuration

Configuration files. `EngineConfig.ofToml` reads the settings of an engine alone;
`HostConfig.ofToml` also reads the `host` section, whose profile supplies a preset for
every engine section that the file does not name. Only the `host` section knows tables
that stand for dates; elsewhere they are tables.
-/

namespace Narrative

/-- Whether a value beside the name of a choice has no content. -/
def Toml.isEmptyContent : Toml → Bool
  | .array items => items.isEmpty
  | .tables items => items.isEmpty
  | .table _ entries => entries.isEmpty
  | _ => false

/-- Reads one of several names: a string, or a table whose only entry has that name and no
content. -/
def Toml.choice {α : Type} (choices : List (String × α)) : Toml → Option α
  | .string s => (choices.find? (·.1 == s)).map (·.2)
  | .table _ [(s, v)] =>
      if v.isEmptyContent then (choices.find? (·.1 == s)).map (·.2) else none
  | _ => none

/-- Reads an unsigned 32-bit integer. -/
def Toml.quantity : Toml → Option UInt32
  | .integer n => if 0 ≤ n ∧ n < UInt32.size then some (UInt32.ofNat n.toNat) else none
  | _ => none

/-- TOML as the format of engine sections: a section by position may have items to spare, and
a date stands for a section that names nothing. -/
def Format.engineToml : Format Toml where
  text := fun | .string s => some s | _ => none
  flag := fun | .boolean b => some b | _ => none
  quantity := Toml.quantity
  choice := Toml.choice
  record := fun body => fun
    | .table _ entries => body.readFrom true (.named entries)
    | .array items => body.readFrom true (.listed items)
    | .tables items => body.readFrom true (.listed (items.map (.table .header)))
    | .datetime => body.readFrom true (.named [])
    | _ => none

/-- TOML as the format of the `host` section, which is a table or a list of its exact length. -/
def Format.hostToml : Format Toml where
  text := fun | .string s => some s | _ => none
  flag := fun | .boolean b => some b | _ => none
  quantity := Toml.quantity
  choice := Toml.choice
  record := fun body => fun
    | .table _ entries => body.readFrom false (.named entries)
    | .array items => body.readFrom false (.listed items)
    | .tables items => body.readFrom false (.listed (items.map (.table .header)))
    | _ => none

/-- Requires a configuration that could be read. -/
def LoadError.orConfigText {α : Type} : Option α → Except LoadError α
  | some a => .ok a
  | none => .error .configText

/-- The text of a configuration file, which may be missing. -/
def LoadError.fileText : Option ByteArray → Except LoadError String
  | some bytes =>
      match String.fromUTF8? bytes with
      | some s => .ok s
      | none => .error .unreadable
  | none => .error .unreadable

namespace EngineConfig

/-- The settings in a parsed document. -/
def ofDocument (document : Toml) : Except LoadError EngineConfig := do
  let config ← LoadError.orConfigText (EngineConfig.read .engineToml document)
  config.validate
  return config

/-- The settings in a TOML text. -/
def ofToml (text : String) : Except LoadError EngineConfig := do
  ofDocument (← LoadError.orConfigText (Toml.parse? text))

/-- The settings in a file. -/
def ofFile (file : Option ByteArray) : Except LoadError EngineConfig := do
  ofToml (← LoadError.fileText file)

end EngineConfig

/-- How content is being run: as shipped, or by its writers. -/
inductive ContentProfile where
  | release
  | authoring
deriving DecidableEq, Repr, Inhabited

namespace ContentProfile

/-- The name of a profile. -/
def name : ContentProfile → String
  | .release => "release"
  | .authoring => "authoring"

/-- The profiles by name. -/
def choices : List (String × ContentProfile) :=
  [("release", .release), ("authoring", .authoring)]

/-- The profile with a name. -/
def ofName? (s : String) : Option ContentProfile := (choices.find? (·.1 == s)).map (·.2)

/-- What a profile is for. -/
def description : ContentProfile → String
  | .release => "Release: permissive unknown types, scenes driven by the game"
  | .authoring => "Authoring: strict unknown types, dispatch tracing, instant scenes"

end ContentProfile

/-- The settings of an engine with those of its host. -/
structure HostConfig where
  profile : ContentProfile
  engine : EngineConfig
  autoCompleteScenes : Bool
deriving DecidableEq, Repr

/-- The `host` section of a configuration file. -/
structure HostSection where
  profile : ContentProfile := .release
  autoCompleteScenes : Option Bool := none
deriving DecidableEq, Repr

/-- Reads the `host` section. -/
def HostSection.read (format : Format Toml) : Toml → Option HostSection :=
  format.record do
    let profile ← FieldReader.field "profile" .release (format.choice ContentProfile.choices)
    let autoCompleteScenes ←
      FieldReader.spelled "auto_complete_scenes" fun v => (format.flag v).map some
    return { profile, autoCompleteScenes }

namespace HostConfig

/-- The preset of a profile. -/
def ofProfile : ContentProfile → HostConfig
  | .release => { profile := .release, engine := {}, autoCompleteScenes := false }
  | .authoring =>
      { profile := .authoring
        engine :=
          { general := { logLevel := "debug" }
            dispatch := { unknownTriggers := .deny, unknownConditions := .deny }
            diagnostics := { warnUnknownTypes := true, traceDispatch := true } }
        autoCompleteScenes := true }

instance : Inhabited HostConfig := ⟨ofProfile .release⟩

/-- The `host` section of a document; a missing one is empty. -/
def sectionOf (document : Toml) : Except LoadError HostSection :=
  match document.entry? "host" with
  | some v => LoadError.orConfigText (HostSection.read .hostToml v)
  | none => .ok {}

/-- A preset in which every engine section that a document names is replaced. -/
def override (preset : EngineConfig) (document : Toml) (authored : EngineConfig) : EngineConfig :=
  let isNamed (key : String) := (document.entry? key).isSome
  { general := if isNamed "general" then authored.general else preset.general
    dispatch := if isNamed "dispatch" then authored.dispatch else preset.dispatch
    diagnostics := if isNamed "diagnostics" then authored.diagnostics else preset.diagnostics }

/-- The settings in a TOML text. -/
def ofToml (text : String) : Except LoadError HostConfig := do
  let document ← LoadError.orConfigText (Toml.parse? text)
  let host ← sectionOf (← LoadError.orConfigText document.withDates?)
  let authored ← EngineConfig.ofDocument document
  let preset := ofProfile host.profile
  let config : HostConfig :=
    { preset with
      engine := override preset.engine document authored
      autoCompleteScenes := host.autoCompleteScenes.getD preset.autoCompleteScenes }
  config.engine.validate
  return config

/-- The settings in a file. -/
def ofFile (file : Option ByteArray) : Except LoadError HostConfig := do
  ofToml (← LoadError.fileText file)

end HostConfig

end Narrative
