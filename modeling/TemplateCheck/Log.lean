import TemplateCheck.Text.Basic

/-!
# Log records

What the checker has to say about its own work. Records are values; the command line decides which
of them are shown and where.
-/

namespace TemplateCheck

/-- How much a record matters. -/
inductive LogLevel where
  | debug
  | warning
deriving DecidableEq, Repr

/-- The level in words. -/
def LogLevel.name : LogLevel → Text
  | debug => "DEBUG"
  | warning => "WARNING"

/-- The part of the checker that a record comes from. -/
inductive LogArea where
  | config
  | program
  | declarations
  | scanner
  | importRules
  | typeRules
  | validator
  | checker
deriving DecidableEq, Repr

/-- The name under which all areas are filed. -/
def logRoot : Text := "elemix_analyser"

/-- The full name of an area. -/
def LogArea.name : LogArea → Text
  | config => logRoot ++ ".config"
  | program => logRoot ++ ".program"
  | declarations => logRoot ++ ".declarations"
  | scanner => logRoot ++ ".template_scanner"
  | importRules => logRoot ++ ".rules.import_rules"
  | typeRules => logRoot ++ ".rules.type_rules"
  | validator => logRoot ++ ".validator"
  | checker => logRoot ++ ".checker"

/-- The full name under which a named area is filed; a name that starts with the root is full. -/
def logName (name : Option Text) : Text :=
  match name with
  | none | some [] => logRoot
  | some name => if Text.startsWith logRoot name then name else logRoot ++ '.' :: name

/-- One message. -/
structure LogRecord where
  level : LogLevel
  area : LogArea
  message : Text
deriving DecidableEq, Repr

end TemplateCheck
