import TemplateCheck.Config
import TemplateCheck.FileTree
import TemplateCheck.Json.Reader
import TemplateCheck.Log
import TemplateCheck.Text.Quoted

/-!
# Reading the configuration

A configuration file is one JSON object. A field that is not known is passed over, and one whose
value has the wrong form keeps its default; both are logged. A file that cannot be read leaves all
defaults. It is an error when a file that was asked for by name is not there, or when a file goes
beyond the limits on JSON.
-/

namespace TemplateCheck

/-- The name of configuration files. -/
def configFileName : Text := "elemix.config.json"

/-- Why there is no configuration. -/
inductive ConfigError where
  | missing (location : Location)
  | limit (limit : JsonLimit)
  /-- The way up from a target with a null character in it cannot be followed. -/
  | nullCharacter
  /-- A location has too long a name. -/
  | nameTooLong
deriving DecidableEq, Repr

/-- The error in words. -/
def ConfigError.message : ConfigError → Text
  | missing location => "Config file " ++ location.toText ++ " does not exist"
  | limit (.digits count) => "An integer has " ++ Text.ofNat count ++ " digits"
  | limit .arrays => "Arrays are nested too deep"
  | limit .objects => "Objects are nested too deep"
  | nullCharacter => "A path holds a null character"
  | nameTooLong => "A name is too long"

namespace Config

/-! ## Fields -/

/-- What a field of a configuration file does. -/
inductive FieldEffect where
  | sets (config : Config)
  | invalid
  | unknown

/-- A setting that is a string; the empty string is none. -/
def setString (value : Json) (set : WideText → Config) : FieldEffect :=
  match value with
  | .string [] => .invalid
  | .string text => .sets (set text)
  | _ => .invalid

/-- A setting that is a list of strings. -/
def setStrings (value : Json) (set : List WideText → Config) : FieldEffect :=
  match value.strings? with
  | some texts => .sets (set texts)
  | none => .invalid

/-- A setting that is on or off. -/
def setBool (value : Json) (set : Bool → Config) : FieldEffect :=
  match value with
  | .bool b => .sets (set b)
  | _ => .invalid

/-- What a field does to a configuration. -/
def fieldEffect (config : Config) (key : WideText) (value : Json) : FieldEffect :=
  if key = WideText.ofText "templateTag" then
    setString value fun text => { config with templateTag := text }
  else if key = WideText.ofText "frameworkModule" then
    setString value fun text => { config with frameworkModule := text }
  else if key = WideText.ofText "componentDecorator" then
    setString value fun text => { config with componentDecorator := text }
  else if key = WideText.ofText "extensions" then
    setStrings value fun texts => { config with extensions := texts }
  else if key = WideText.ofText "exclude" then
    setStrings value fun texts => { config with excludePaths := texts }
  else if key = WideText.ofText "reportUnusedImports" then
    setBool value fun b => { config with reportUnusedImports := b }
  else .unknown

/-- Applies one field of the file at `source`. -/
def applyField (source : Text) (sofar : Config × List LogRecord) (field : WideText × Json) :
    Config × List LogRecord :=
  match fieldEffect sofar.1 field.1 field.2 with
  | .sets config => (config, sofar.2)
  | .invalid =>
    (sofar.1, sofar.2 ++ [⟨.warning, .config, "Invalid value for " ++ WideText.quoted field.1 ++
      " in " ++ source ++ ", using default"⟩])
  | .unknown =>
    (sofar.1, sofar.2 ++ [⟨.debug, .config, "Ignoring unknown config key " ++
      WideText.quoted field.1 ++ " in " ++ source⟩])

/-! ## Files -/

/-- The configuration in the file at a location, nested at most `depth` deep; `reason` words the
failure to read it. -/
def ofFile (tree : FileTree) (reason : ReadFailure → Text) (depth : Nat) (location : Location) :
    Except ConfigError (Config × List LogRecord) :=
  let source := location.toText
  let config : Config := { source := some source }
  let warned (message : Text) : Except ConfigError (Config × List LogRecord) :=
    .ok (config, [⟨.warning, .config, message ++ ", using defaults"⟩])
  let unreadable (failure : ReadFailure) :=
    warned ("Could not read " ++ source ++ " (" ++ reason failure ++ ")")
  match tree.read location with
  | .error failure => unreadable failure
  | .ok text =>
    match Json.read depth text with
    | .ok (.object fields) => .ok (fields.foldl (applyField source) (config, []))
    | .ok _ => warned ("Config " ++ source ++ " must contain a JSON object")
    | .error .malformed => unreadable .notJson
    | .error (.limit limit) => .error (.limit limit)

/-- The nearest configuration file in a directory or above it. The names of the directory come with
the last one first. -/
def findAbove? (tree : FileTree) (root : Text) (names : List Text) : Option Location :=
  let candidate : Location := ⟨root, (configFileName :: names).reverse⟩
  if tree.present candidate then some candidate
  else
    match names with
    | [] => none
    | _ :: names => findAbove? tree root names

/-- The nearest configuration file in the directory of a target or above it. -/
def findFile? (tree : FileTree) (target : Location) : Option Location :=
  let target := Location.resolve tree.here target
  let directory := if tree.hasFile target then target.parent else target
  findAbove? tree directory.root directory.names.reverse

/-- The configuration for a target: from the file that was asked for, or else from the nearest one,
or else the default one. -/
def load (tree : FileTree) (reason : ReadFailure → Text) (depth : Nat) (target : Location)
    (asked : Option Location) : Except ConfigError (Config × List LogRecord) :=
  match asked with
  | some location =>
    if tree.isTooLong location then .error .nameTooLong
    else if tree.present location then ofFile tree reason depth location
    else .error (.missing location)
  | none =>
    if target.hasNull then .error .nullCharacter
    else if tree.isTooLong (Location.resolve tree.here target) then .error .nameTooLong
    else
      match findFile? tree target with
      | some location => ofFile tree reason depth location
      | none => .ok ({}, [])

end Config

end TemplateCheck
