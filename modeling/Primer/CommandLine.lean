/-
The command line: read a program from a file, report what is wrong with it and, if
nothing is, run it at the console.
-/
import Primer.CommandLine.Options
import Primer.Grammar.Parse
import Primer.Host.Console
import Primer.Program.Outline
import Primer.Session

namespace Primer.CommandLine

/-- What is found under a file name. -/
inductive FileEntry where
  | missing
  | directory
  | bytes (content : ByteArray)
  /-- The file is there and cannot be read. -/
  | unreadable (reason : String)

/-- Why there is no program to read. -/
inductive FileError where
  | notFound (file : String)
  | cannotRead (file reason : String)
  deriving DecidableEq, Repr, Inhabited

def FileError.message : FileError → String
  | notFound file => s!"file '{file}' not found"
  | cannotRead file reason => s!"cannot read '{file}': {reason}"

/-- The text under a file name. -/
def FileEntry.text (file : String) : FileEntry → Except FileError String
  | missing => .error (.notFound file)
  | directory => .error (.cannotRead file "Is a directory (os error 21)")
  | unreadable reason => .error (.cannotRead file reason)
  | bytes content =>
    match String.fromUTF8? content with
    | some text => .ok text
    | none => .error (.cannotRead file "stream did not contain valid UTF-8")

/-- What the command line answers with. -/
structure Report where
  exit : Nat
  /-- Lines for the standard output. -/
  output : List String := []
  /-- What is wrong with the program, in the order in which it came up. -/
  diagnostics : List Diagnostic := []
  /-- What is said about the use of the command line and about the run as a whole. -/
  notices : List String := []
  /-- What the engine did, for a user who wants to know. -/
  log : List String := []
  /-- Whether the program waits for a line of input, so that this is not yet all. -/
  waiting : Bool := false
  deriving Inhabited

def exitSuccess : Nat := 0
def exitFailure : Nat := 1
def exitUsage : Nat := 2

def exitFor (errorFree : Bool) : Nat := if errorFree then exitSuccess else exitFailure

def settings (options : Options) : Settings :=
  let usual : Settings := { autoMain := !options.noMain }
  match options.maxDepth with
  | some callDepth => { usual with callDepth }
  | none => usual

/-- Run a program at the console. -/
def runAtConsole (options : Options) (fuel : Nat) (program : Program) (console : Console) :
    Outcome × Console :=
  let engine : Engine Console := { program, settings := settings options, host := Console.host }
  let (outcome, machine) := engine.runProgram fuel (engine.start { state := console })
  (outcome, machine.outside.state)

/-- What there is to say about a program that was read. -/
def readingLog (options : Options) (program : Program) (found : List Diagnostic) : List String :=
  let statements := program.statements.length
  let routines := program.routines.size
  let classes := program.classes.size
  if options.verbosity = 0 then []
  else [s!"read {statements} statement(s), {routines} routine(s) and {classes} class(es); "
    ++ s!"{found.length} diagnostic(s)"]

/-- What there is to say about a run. -/
def runLog (options : Options) (outcome : Outcome) : List String :=
  let how := match outcome.ending with
    | .completed => "completed"
    | .stopped => "stopped"
    | .outOfFuel => "given up"
  if options.verbosity = 0 then []
  else [s!"the run was {how}; {outcome.problems.length} diagnostic(s)"]

/-- Read a program, report what is wrong with it and run it if nothing is. -/
def runText (options : Options) (fuel : Nat) (source : String) (console : Console) : Report :=
  let (program, found) := Program.ofSource source
  let outline := if options.outline then program.outline.map Program.OutlineEntry.text else []
  let errors := (found.filter Diagnostic.isError).length
  let log := readingLog options program found
  if 0 < errors then
    { exit := exitFailure
      output := outline
      diagnostics := found
      notices := [s!"{errors} error(s) found; the program was not run"]
      log }
  else if options.checkOnly then
    { exit := exitSuccess, output := outline, diagnostics := found, log }
  else
    let (outcome, console) := runAtConsole options fuel program console
    { exit := exitFor !outcome.hasErrors
      output := outline ++ console.output.toList
      diagnostics := found ++ outcome.diagnostics
      log := log ++ runLog options outcome
      waiting := console.waiting }

/-- Do what was asked for with what is found under the file name. -/
def run (options : Options) (fuel : Nat) (entry : FileEntry) (console : Console) : Report :=
  match entry.text options.file with
  | .error e => { exit := exitFailure, notices := [s!"Error: {e.message}"] }
  | .ok source => runText options fuel source console

/-- Answer to the arguments of a command line, where `files` says what is found under a name. -/
def respond (arguments : List String) (fuel : Nat) (files : String → FileEntry)
    (console : Console) : Report :=
  match Request.ofArguments arguments with
  | .error e => { exit := exitUsage, notices := [s!"error: {e.message}"] }
  | .ok .help => { exit := exitSuccess, output := [usage] }
  | .ok (.run options) => run options fuel (files options.file) console

end Primer.CommandLine
