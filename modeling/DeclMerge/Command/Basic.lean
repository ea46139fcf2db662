import DeclMerge.Command.Arguments
import DeclMerge.Command.Paint
import DeclMerge.Json.Reader
import DeclMerge.Merge.Libraries

/-!
# The command

A run reads the options and the libraries, merges these, and writes the report. How files are read
is given from outside, so that the command itself is a function of their contents.

## Main definitions

* `CommandError` — why a run has no report
* `Command.optionsOf`, `Command.libraryOf` — reading the input
* `Command.mergeInputs` — the merge that a run makes
* `Command.run` — the report of a run
* `Command.rendered` — the written form of a report
-/

namespace DeclMerge

/-- Why a run has no report, or cannot write it. -/
inductive CommandError where
  | unreadableConfig (path : String)
  | invalidConfig (path : String)
  | unreadableTree (target : Target) (path : String)
  | invalidTree (target : Target) (path : String)
  | mergeFailed (error : InputError)
  | unwritableReport (path : String)
deriving DecidableEq, Repr

/-- The text of an error. -/
def CommandError.message : CommandError → String
  | .unreadableConfig path => "failed to read config " ++ path
  | .invalidConfig path => "invalid config " ++ path
  | .unreadableTree target path => "failed to read " ++ target.name ++ " tree " ++ path
  | .invalidTree target path => "invalid " ++ target.name ++ " tree " ++ path
  | .mergeFailed error => "merge failed: " ++ error.message
  | .unwritableReport path => "failed to write " ++ path

namespace Command

/-- The exit code of a run that has no report. -/
def usageExitCode : Nat := 2

/-- The options of a run: those of the configuration file, or the defaults, as far as the
arguments do not overrule them. -/
def optionsOf (read : String → Option String) (arguments : Arguments) :
    Except CommandError Options := do
  let options ←
    match arguments.config with
    | none => pure {}
    | some path =>
      match read path with
      | none => .error (.unreadableConfig path)
      | some text =>
        match (Json.ofText? text).bind Options.ofJson? with
        | none => .error (.invalidConfig path)
        | some options => pure options
  let options := if arguments.noParallel then options.sequential else options
  return if arguments.noOverrides then options.withoutOverrides else options

/-- The library of one target. The command line says which target it is, whatever the file says. -/
def libraryOf (read : String → Option String) (spec : TargetPath) :
    Except CommandError TargetLibrary :=
  match read spec.path with
  | none => .error (.unreadableTree spec.target spec.path)
  | some text =>
    match (Json.ofText? text).bind TargetLibrary.ofJson? with
    | none => .error (.invalidTree spec.target spec.path)
    | some library => .ok { library with target := spec.target }

/-- The merge that the arguments ask for. The options are read first, and then the libraries in
the order of the arguments. -/
def mergeInputs (read : String → Option String) (arguments : Arguments) :
    Except CommandError MergeResult := do
  let options ← optionsOf read arguments
  let libraries ← arguments.targets.mapM (libraryOf read)
  match mergeLibraries .standard options libraries with
  | .ok result => return result
  | .error error => .error (.mergeFailed error)

/-- The report of a run. -/
def run (read : String → Option String) (arguments : Arguments) : Except CommandError Report :=
  (mergeInputs read arguments).map MergeResult.report

/-- The written form of a report. Only text is colored. -/
def rendered (report : Report) (format : ReportFormat) (color : Bool) : String :=
  match format with
  | .json => report.document
  | .text => if color then Paint.text report.text else report.text

/-- Whether a run colors its report, given whether it writes to a terminal. -/
def usesColor (arguments : Arguments) (terminal : Bool) : Bool :=
  !arguments.noColor && arguments.output.isNone && terminal

/-- The files that a run reads. -/
def inputPaths (arguments : Arguments) : List String :=
  arguments.config.toList ++ arguments.targets.map TargetPath.path

end Command

end DeclMerge
