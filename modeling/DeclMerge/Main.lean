import DeclMerge.Command.Basic

/-!
# The program

The outer layer of the command: it reads the files that the arguments name, prints or writes the
report, and ends with an exit code.

## Main definitions

* `main` — the program
-/

namespace DeclMerge.Program

/-- The help text. -/
def helpText : String :=
  "Merge per-target declaration trees and report where targets diverge\n\n" ++
  "Options:\n" ++
  "  -t, --target <NAME=PATH>  A target's declaration tree; repeat once per target\n" ++
  "  -c, --config <CONFIG>     JSON file with merge options\n" ++
  "  -f, --format <FORMAT>     Report format: text (default) or json\n" ++
  "  -o, --output <OUTPUT>     Write the report here instead of stdout\n" ++
  "      --no-parallel         Merge on the current thread only\n" ++
  "      --no-overrides        Skip class member scopes and override conflicts\n" ++
  "      --no-color            Never colorize text output\n" ++
  "  -h, --help                Print help\n" ++
  "  -V, --version             Print version\n"

/-- The version text. -/
def versionText : String := "declmerge 0.1.0\n"

/-- The contents of a file, if it can be read. -/
def tryRead (path : String) : IO (Option String) := do
  try
    return some (← IO.FS.readFile path)
  catch _ => return none

/-- Writes a file; the result says whether that was possible. -/
def tryWrite (path contents : String) : IO Bool := do
  try
    IO.FS.writeFile path contents
    return true
  catch _ => return false

/-- Reports why there is no report. -/
def refuse (error : CommandError) : IO UInt32 := do
  IO.eprintln ("error: " ++ error.message)
  return UInt32.ofNat Command.usageExitCode

/-- Runs the command. -/
def runWith (arguments : Arguments) : IO UInt32 := do
  let contents ← (Command.inputPaths arguments).mapM fun path => do
    return (path, ← tryRead path)
  match Command.run (fun path => (contents.lookup path).join) arguments with
  | .error error => refuse error
  | .ok report =>
    let stdout ← IO.getStdout
    let color := Command.usesColor arguments (← stdout.isTty)
    let rendered := Command.rendered report arguments.format color
    match arguments.output with
    | none => stdout.putStr rendered
    | some path =>
      if !(← tryWrite path rendered) then return ← refuse (.unwritableReport path)
    return UInt32.ofNat report.exitCode

end DeclMerge.Program

/-- Runs the command with the given arguments. -/
def main (arguments : List String) : IO UInt32 := do
  match DeclMerge.Arguments.ofList? arguments with
  | .ok arguments => DeclMerge.Program.runWith arguments
  | .error .displayHelp =>
    IO.print DeclMerge.Program.helpText
    return 0
  | .error .displayVersion =>
    IO.print DeclMerge.Program.versionText
    return 0
  | .error error =>
    IO.eprintln ("error: " ++ error.label)
    return UInt32.ofNat DeclMerge.Command.usageExitCode
