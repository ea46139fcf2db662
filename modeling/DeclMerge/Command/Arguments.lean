import DeclMerge.Command.TargetPath

/-!
# Command-line arguments

An option is written by its long name, with its value behind an equals sign or as the next
argument, or by a letter, with its value right behind it, behind an equals sign or as the next
argument. Names are not abbreviated. A value that comes as the next argument is looked at only
when the next option is, so that an unknown option is noticed first.

## Main definitions

* `Arguments` — what the command line says
* `ArgumentError` — why a command line is refused, or asks for something else than a run
* `ArgumentReader.step` — the effect of one argument
* `Arguments.ofList?` — reading a command line
-/

namespace DeclMerge

/-- The form of the report. -/
inductive ReportFormat where
  | text | json
deriving DecidableEq, Repr, Inhabited

/-- The word for a form. -/
def ReportFormat.tag : ReportFormat → String
  | .text => "text"
  | .json => "json"

/-- The form that a word names, in letters of either case. -/
def ReportFormat.ofText? (text : String) : Option ReportFormat :=
  [ReportFormat.text, .json].find? fun format => format.tag.toList = text.toList.map Char.toLower

/-- What the command line says. -/
structure Arguments where
  targets : List TargetPath
  config : Option String
  format : ReportFormat
  output : Option String
  noParallel : Bool
  noOverrides : Bool
  noColor : Bool
deriving DecidableEq, Repr

/-- Why a command line is not run. -/
inductive ArgumentError where
  | unknownArgument | invalidValue | valueValidation | tooManyValues | argumentConflict
  | missingRequiredArgument | displayHelp | displayVersion
deriving DecidableEq, Repr

/-- The name of an error. -/
def ArgumentError.label : ArgumentError → String
  | .unknownArgument => "UnknownArgument"
  | .invalidValue => "InvalidValue"
  | .valueValidation => "ValueValidation"
  | .tooManyValues => "TooManyValues"
  | .argumentConflict => "ArgumentConflict"
  | .missingRequiredArgument => "MissingRequiredArgument"
  | .displayHelp => "DisplayHelp"
  | .displayVersion => "DisplayVersion"

/-- The options that take a value. -/
inductive Setting where
  | target | config | format | output
deriving DecidableEq, Repr

/-- The options that take no value. -/
inductive Switch where
  | noParallel | noOverrides | noColor | help | version
deriving DecidableEq, Repr

/-- The options by their long names. -/
def longOptions : List (String × (Setting ⊕ Switch)) :=
  [("target", .inl .target), ("config", .inl .config), ("format", .inl .format),
   ("output", .inl .output), ("no-parallel", .inr .noParallel),
   ("no-overrides", .inr .noOverrides), ("no-color", .inr .noColor), ("help", .inr .help),
   ("version", .inr .version)]

/-- The options by their letters. -/
def shortOptions : List (Char × (Setting ⊕ Switch)) :=
  [('t', .inl .target), ('c', .inl .config), ('f', .inl .format), ('o', .inl .output),
   ('h', .inr .help), ('V', .inr .version)]

/-- What has been read of a command line. `waiting` is an option that stands apart from its value,
and the value if it has come. -/
structure ArgumentReader where
  targets : List TargetPath := []
  config : Option String := none
  format : Option ReportFormat := none
  output : Option String := none
  switches : List Switch := []
  waiting : Option (Setting × Option (List Char)) := none

namespace ArgumentReader

/-- A path must not be empty. -/
def path? (value : List Char) : Except ArgumentError String :=
  if value.isEmpty then .error .invalidValue else .ok (String.ofList value)

/-- The effect of a value on an option. Only targets may be given more than once. -/
def setValue (reader : ArgumentReader) (setting : Setting) (value : List Char) :
    Except ArgumentError ArgumentReader :=
  match setting with
  | .target =>
    match TargetPath.ofText? (String.ofList value) with
    | .ok spec => .ok { reader with targets := reader.targets ++ [spec] }
    | .error _ => .error .valueValidation
  | .config =>
    if reader.config.isSome then .error .argumentConflict
    else do return { reader with config := some (← path? value) }
  | .output =>
    if reader.output.isSome then .error .argumentConflict
    else do return { reader with output := some (← path? value) }
  | .format =>
    if reader.format.isSome then .error .argumentConflict
    else
      match ReportFormat.ofText? (String.ofList value) with
      | some format => .ok { reader with format := some format }
      | none => .error .invalidValue

/-- Settles the option that is waiting, which must have its value by now. -/
def settle (reader : ArgumentReader) : Except ArgumentError ArgumentReader :=
  match reader.waiting with
  | none => .ok reader
  | some (_, none) => .error .invalidValue
  | some (setting, some value) => { reader with waiting := none }.setValue setting value

/-- The effect of an option with a value. -/
def give (reader : ArgumentReader) (setting : Setting) (value : List Char) :
    Except ArgumentError ArgumentReader := do
  (← reader.settle).setValue setting value

/-- The effect of an option that stands apart from its value. -/
def await (reader : ArgumentReader) (setting : Setting) :
    Except ArgumentError ArgumentReader := do
  return { ← reader.settle with waiting := some (setting, none) }

/-- The effect of an option without a value. -/
def turnOn (reader : ArgumentReader) (switch : Switch) :
    Except ArgumentError ArgumentReader := do
  let reader ← reader.settle
  match switch with
  | .help => .error .displayHelp
  | .version => .error .displayVersion
  | switch =>
    if reader.switches.contains switch then .error .argumentConflict
    else return { reader with switches := reader.switches ++ [switch] }

/-- The effect of an argument behind two hyphens: a long name, and the value behind an equals
sign. -/
def longStep (reader : ArgumentReader) (body : List Char) : Except ArgumentError ArgumentReader :=
  let (name, value) :=
    match Text.cutFirst? '=' body with
    | some (name, value) => (name, some value)
    | none => (body, none)
  match longOptions.lookup (String.ofList name), value with
  | none, _ => .error .unknownArgument
  | some (.inl setting), some value => reader.give setting value
  | some (.inl setting), none => reader.await setting
  | some (.inr _), some _ => .error .tooManyValues
  | some (.inr switch), none => reader.turnOn switch

/-- The effect of an argument behind one hyphen: a letter, and the value behind it, with or
without an equals sign. -/
def shortStep (reader : ArgumentReader) (letter : Char) (rest : List Char) :
    Except ArgumentError ArgumentReader :=
  match shortOptions.lookup letter, rest with
  | none, _ => .error .unknownArgument
  | some (.inr switch), _ => reader.turnOn switch
  | some (.inl setting), [] => reader.await setting
  | some (.inl setting), '=' :: value => reader.give setting value
  | some (.inl setting), value => reader.give setting value

/-- The effect of one argument. One that is no option is the value that is waited for. -/
def step (reader : ArgumentReader) (argument : List Char) :
    Except ArgumentError ArgumentReader :=
  match argument with
  | '-' :: '-' :: body => reader.longStep body
  | '-' :: letter :: rest => reader.shortStep letter rest
  | value =>
    match reader.waiting with
    | some (setting, none) => .ok { reader with waiting := some (setting, some value) }
    | _ => .error .unknownArgument

/-- The effect of several arguments. Two hyphens alone end the options, and nothing may follow
them. -/
def run (reader : ArgumentReader) : List String → Except ArgumentError ArgumentReader
  | [] => .ok reader
  | argument :: arguments =>
    if argument = "--" then
      if arguments.isEmpty then .ok reader else .error .unknownArgument
    else do (← reader.step argument.toList).run arguments

end ArgumentReader

/-- The arguments of a command line, which has to name a target. -/
def Arguments.ofList? (arguments : List String) : Except ArgumentError Arguments := do
  let reader ← ArgumentReader.run {} arguments
  let reader ← reader.settle
  if reader.targets.isEmpty then .error .missingRequiredArgument
  else
    return {
      targets := reader.targets
      config := reader.config
      format := reader.format.getD .text
      output := reader.output
      noParallel := reader.switches.contains .noParallel
      noOverrides := reader.switches.contains .noOverrides
      noColor := reader.switches.contains .noColor }

end DeclMerge
