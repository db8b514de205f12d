import TemplateCheck.Location
import TemplateCheck.Report
import TemplateCheck.Text.Numeral
import TemplateCheck.Text.Quoted

/-!
# Command line arguments

A command line names one target and sets options. A long option may be cut short as long as it
stays unique, and its value follows it as the next argument or behind `=`. An argument that starts
with a hyphen is an option, unless it is a single hyphen, a negative number or has a space in it;
after `--` nothing is an option. Arguments are first told apart and then used up from left to
right, so a cut that is not unique is the error even when something before it is wrong as well.
-/

namespace TemplateCheck

/-- An option of the command line. -/
inductive Switch where
  | help
  | format
  | mode
  | config
  | output
  | verbose
  | logFile
deriving DecidableEq, Repr

namespace Switch

/-- All options in order. -/
def all : List Switch := [help, format, mode, config, output, verbose, logFile]

theorem mem_all (switch : Switch) : switch ∈ all := by cases switch <;> decide

/-- How the option is spelled. -/
def spellings : Switch → List Text
  | help => ["-h", "--help"]
  | format => ["--format"]
  | mode => ["--mode"]
  | config => ["--config"]
  | output => ["--output"]
  | verbose => ["--verbose"]
  | logFile => ["--log-file"]

/-- Whether the option has a value. -/
def takesValue : Switch → Bool
  | help | verbose => false
  | _ => true

/-- The option as messages call it. -/
def title (switch : Switch) : Text := Text.join ['/'] switch.spellings

/-- All spellings with their options. -/
def table : List (Text × Switch) :=
  all.flatMap fun switch => switch.spellings.map (·, switch)

/-- The option with a spelling. -/
def ofSpelling? (spelling : Text) : Option Switch :=
  (table.find? fun entry => entry.1 = spelling).map (·.2)

end Switch

/-- Why a command line is refused. -/
inductive ArgumentError where
  | ambiguous (argument : Text) (candidates : List Text)
  | missingValue (switch : Switch)
  | needlessValue (switch : Switch) (value : Text)
  | invalidChoice (switch : Switch) (value : Text) (choices : List Text)
  | unrecognized (arguments : List Text)
deriving DecidableEq, Repr

/-- The error in words. -/
def ArgumentError.message : ArgumentError → Text
  | ambiguous argument candidates =>
    "ambiguous option: " ++ argument ++ " could match " ++ Text.join ", " candidates
  | missingValue switch => "argument " ++ switch.title ++ ": expected one argument"
  | needlessValue switch value =>
    "argument " ++ switch.title ++ ": ignored explicit argument " ++ Text.quoted value
  | invalidChoice switch value choices =>
    "argument " ++ switch.title ++ ": invalid choice: " ++ Text.quoted value ++ " (choose from " ++
      Text.join ", " (choices.map Text.quoted) ++ ")"
  | unrecognized arguments => "unrecognized arguments: " ++ Text.join " " arguments

/-! ## Telling arguments apart -/

/-- The argument after which nothing is an option. -/
def separatorText : Text := "--"

/-- What an argument is. -/
inductive Argument where
  | plain (text : Text)
  /-- The first `--`. -/
  | separator
  /-- An option with the value that came with it. -/
  | switch (switch : Switch) (value : Option Text)
  | unknown (text : Text)
deriving DecidableEq, Repr

namespace Argument

/-- What stands before and after the first `=`. -/
def splitValue (argument : Text) : Text × Option Text :=
  match argument.dropWhile (· ≠ '=') with
  | [] => (argument, none)
  | _ :: value => (Text.upTo '=' argument, some value)

/-- What is left of the text written together with a short option. More letters are more short
options, and from the first that is not known on the rest is a value that none of them takes. -/
def clusterValue? (rest : Text) : Option Text :=
  match rest.dropWhile (· = 'h') with
  | [] => none
  | value => some value

/-- The options that an argument may mean by its start. -/
def readings (argument : Text) : List (Text × Switch × Option Text) :=
  if Text.startsWith "--" argument then
    let (start, value) := splitValue argument
    (Switch.table.filter fun entry => Text.startsWith start entry.1).map fun entry =>
      (entry.1, entry.2, value)
  else
    Switch.table.filterMap fun entry =>
      if entry.1 = argument.take 2 then some (entry.1, entry.2, clusterValue? (argument.drop 2))
      else if Text.startsWith argument entry.1 then some (entry.1, entry.2, none)
      else none

/-- Whether a text is a negative decimal number; a line feed may follow it. -/
def isNegativeNumber (t : Text) : Bool :=
  match t with
  | '-' :: digits =>
    let digits := (Text.dropEnd? ['\n'] digits).getD digits
    let fraction := digits.dropWhile isDecimal
    digits ≠ [] &&
      match fraction with
      | [] => true
      | '.' :: fraction => fraction ≠ [] && fraction.all isDecimal
      | _ => false
  | _ => false

/-- Tells what an argument before any `--` is. -/
def ofText (argument : Text) : Except ArgumentError Argument :=
  if argument.head? ≠ some '-' then .ok (.plain argument)
  else
    match Switch.ofSpelling? argument with
    | some option => .ok (.switch option none)
    | none =>
      if argument.length = 1 then .ok (.plain argument)
      else
        let (spelling, value) := splitValue argument
        match value, Switch.ofSpelling? spelling with
        | some value, some option =>
          .ok (.switch option
            (if spelling.length = 2 ∧ value ≠ [] then clusterValue? value else some value))
        | _, _ =>
          match readings argument with
          | [(_, option, value)] => .ok (.switch option value)
          | [] =>
            if isNegativeNumber argument || ' ' ∈ argument then .ok (.plain argument)
            else .ok (.unknown argument)
          | candidates => .error (.ambiguous argument (candidates.map (·.1)))

/-- Tells what each argument of a command line is. -/
def ofTexts : List Text → Except ArgumentError (List Argument)
  | [] => .ok []
  | text :: texts =>
    if text = separatorText then .ok (.separator :: texts.map .plain)
    else do return (← ofText text) :: (← ofTexts texts)

end Argument

/-! ## Using arguments -/

/-- Where an option points. -/
inductive Pointer where
  /-- The option was not given. -/
  | unset
  /-- The option was given without a value, by `--` for one. -/
  | void
  | location (location : Location)
deriving DecidableEq, Repr

/-- What a command line asks for. -/
structure Options where
  target : Location := ⟨[], ["src"]⟩
  format : ReportFormat := .console
  mode : ReportMode := .build
  config : Pointer := .unset
  output : Pointer := .unset
  verbose : Bool := false
  logFile : Pointer := .unset
deriving DecidableEq, Repr

namespace Options

/-- The words for formats. -/
def formats : List (Text × ReportFormat) := [("console", .console), ("json", .json)]

/-- The words for modes. -/
def modes : List (Text × ReportMode) := [("build", .build), ("serve", .serve)]

/-- The choice that a word stands for. -/
def choose {α : Type} (switch : Switch) (choices : List (Text × α)) (value : Text) :
    Except ArgumentError α :=
  match choices.find? fun choice => choice.1 = value with
  | some choice => .ok choice.2
  | none => .error (.invalidChoice switch value (choices.map (·.1)))

/-- Sets an option to a value. -/
def setTo (options : Options) (value : Text) : Switch → Except ArgumentError Options
  | .format => do return { options with format := ← choose .format formats value }
  | .mode => do return { options with mode := ← choose .mode modes value }
  | .config => .ok { options with config := .location (Location.ofText value) }
  | .output => .ok { options with output := .location (Location.ofText value) }
  | .logFile => .ok { options with logFile := .location (Location.ofText value) }
  | .help | .verbose => .ok options

/-- Gives an option no value. The format is then the console's, and no diagnostic aborts. -/
def setToNone (options : Options) : Switch → Options
  | .format => { options with format := .console }
  | .mode => { options with mode := .serve }
  | .config => { options with config := .void }
  | .output => { options with output := .void }
  | .logFile => { options with logFile := .void }
  | .help | .verbose => options

/-- Sets an option to a value, where `--` stands for none. -/
def set (options : Options) (value : Text) (switch : Switch) : Except ArgumentError Options :=
  if value = separatorText then .ok (options.setToNone switch) else options.setTo value switch

end Options

/-- What a command line comes down to. -/
inductive Request where
  | help
  | check (options : Options)
deriving DecidableEq, Repr

namespace Request

/-- Uses up arguments from left to right. The first plain argument is the target, with or without
`--` beside it; arguments that nothing can be done with are collected in `surplus`. -/
def ofArguments (options : Options) (target : Option Text) (surplus : List Text) :
    List Argument → Except ArgumentError Request
  | [] =>
    if surplus = [] then
      .ok (.check { options with target := (target.map Location.ofText).getD options.target })
    else .error (.unrecognized surplus)
  | .unknown text :: rest => ofArguments options target (surplus ++ [text]) rest
  | .switch switch (some value) :: rest =>
    if switch.takesValue then
      match options.set value switch with
      | .ok options => ofArguments options target surplus rest
      | .error error => .error error
    else .error (.needlessValue switch value)
  | .switch .help none :: _ => .ok .help
  | .switch .verbose none :: rest =>
    ofArguments { options with verbose := true } target surplus rest
  | .switch switch none :: .plain value :: rest =>
    match options.set value switch with
    | .ok options => ofArguments options target surplus rest
    | .error error => .error error
  | .switch switch none :: _ => .error (.missingValue switch)
  | .plain text :: .separator :: rest =>
    match target with
    | none => ofArguments options (some text) surplus rest
    | some _ => ofArguments options target (surplus ++ [text, separatorText]) rest
  | .plain text :: rest =>
    match target with
    | none => ofArguments options (some text) surplus rest
    | some _ => ofArguments options target (surplus ++ [text]) rest
  | .separator :: .plain text :: rest =>
    match target with
    | none => ofArguments options (some text) surplus rest
    | some _ => ofArguments options target (surplus ++ [separatorText, text]) rest
  | .separator :: rest =>
    match target with
    | none => ofArguments options target surplus rest
    | some _ => ofArguments options target (surplus ++ [separatorText]) rest

/-- Reads a command line. -/
def ofTexts (texts : List Text) : Except ArgumentError Request :=
  (Argument.ofTexts texts).bind (ofArguments {} none [])

end Request

end TemplateCheck
