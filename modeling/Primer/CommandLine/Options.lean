/-
The arguments of the command line.

Arguments are read from left to right, and the first one that is wrong decides what is
said.  Short options can be written together; the value of a long one follows it or is
joined to it by `=`.  After `--` everything is a file name.  An option that does not
count how often it is given may be given once.
-/
namespace Primer.CommandLine

structure Options where
  file : String
  /-- Report what is wrong without running the program. -/
  checkOnly : Bool := false
  /-- Print the outline first. -/
  outline : Bool := false
  /-- How many calls may be active at a time. -/
  maxDepth : Option Nat := none
  /-- Do not call `main`. -/
  noMain : Bool := false
  verbosity : Nat := 0
  deriving DecidableEq, Repr, Inhabited

inductive UsageError where
  | unknownOption (argument : String)
  | repeatedOption (option : String)
  | missingValue (option : String)
  | unneededValue (option value : String)
  | invalidValue (option value : String)
  | surplusArgument (argument : String)
  | missingFile
  deriving DecidableEq, Repr, Inhabited

def UsageError.message : UsageError → String
  | unknownOption argument => s!"unexpected argument '{argument}' found"
  | repeatedOption option => s!"the argument '{option}' cannot be used multiple times"
  | missingValue option => s!"a value is required for '{option} <N>' but none was supplied"
  | unneededValue option value => s!"unexpected value '{value}' for '{option}' found; no more were expected"
  | invalidValue option value => s!"invalid value '{value}' for '{option} <N>'"
  | surplusArgument argument => s!"unexpected argument '{argument}' found"
  | missingFile => "the following required arguments were not provided: <FILE>"

/-- What the user wants. -/
inductive Request where
  | help
  | run (options : Options)
  deriving DecidableEq, Repr, Inhabited

/-- What has been read so far. -/
structure Draft where
  file : Option String := none
  checkOnly : Bool := false
  outline : Bool := false
  maxDepth : Option Nat := none
  noMain : Bool := false
  verbosity : Nat := 0

/-- What to do after an argument. -/
inductive Progress where
  | help
  | goOn (draft : Draft)

abbrev Parsed := Except UsageError

/-- Set something that can be set once. -/
def once (isSet : Bool) (option : String) (draft : Draft) : Parsed Draft :=
  if isSet then .error (.repeatedOption option) else .ok draft

def checkOption : String := "--check"
def outlineOption : String := "--outline"
def maxDepthOption : String := "--max-depth"
def noMainOption : String := "--no-main"

/-- A whole number without a sign other than `+` that fits 64 bits. -/
def readDepth? (text : String) : Option Nat :=
  let digits := match text.toList with
    | '+' :: rest => rest
    | cs => cs
  if digits.isEmpty || !digits.all Char.isDigit then none
  else
    let n := digits.foldl (fun n c => 10 * n + (c.toNat - '0'.toNat)) 0
    if n < 18446744073709551616 then some n else none

def setDepth (text : String) (d : Draft) : Parsed Draft :=
  match readDepth? text with
  | none => .error (.invalidValue maxDepthOption text)
  | some n => once d.maxDepth.isSome maxDepthOption { d with maxDepth := some n }

/-- A file name; there is one program to run. -/
def setFile (name : String) (d : Draft) : Parsed Draft :=
  match d.file with
  | some _ => .error (.surplusArgument name)
  | none => .ok { d with file := some name }

/-- An option that is written with two dashes and takes no value. -/
def longFlag (option : String) (d : Draft) : Parsed Progress := do
  if option = "--help" then return .help
  else if option = checkOption then
    return .goOn (← once d.checkOnly option { d with checkOnly := true })
  else if option = outlineOption then
    return .goOn (← once d.outline option { d with outline := true })
  else if option = noMainOption then
    return .goOn (← once d.noMain option { d with noMain := true })
  else if option = "--verbose" then
    return .goOn { d with verbosity := d.verbosity + 1 }
  else throw (.unknownOption option)

/-- Options that are written together after one dash. -/
def shortFlags (d : Draft) : List Char → Parsed Progress
  | [] => .ok (.goOn d)
  | 'v' :: rest => shortFlags { d with verbosity := d.verbosity + 1 } rest
  | 'h' :: _ => .ok .help
  | c :: _ => .error (.unknownOption (String.ofList ['-', c]))

/-- A long option and the value that is joined to it by `=`. -/
def splitValue (argument : List Char) : String × Option String :=
  let (option, rest) := argument.span (· ≠ '=')
  (String.ofList option, match rest with
    | _ :: value => some (String.ofList value)
    | [] => none)

/-- An argument that stands for itself: an option, or a file name. -/
def single (argument : String) (d : Draft) : Parsed Progress :=
  match argument.toList with
  | '-' :: '-' :: _ =>
    match splitValue argument.toList with
    | (option, none) => longFlag option d
    | (option, some value) =>
      if option = maxDepthOption then do return .goOn (← setDepth value d)
      else do
        let _ ← longFlag option { }
        throw (.unneededValue option value)
  | '-' :: c :: rest => shortFlags d (c :: rest)
  | _ => do return .goOn (← setFile argument d)

/-- Read the arguments that are left. -/
def readArguments (d : Draft) : List String → Parsed Progress
  | [] => .ok (.goOn d)
  | "--" :: files => do return .goOn (← files.foldlM (fun d name => setFile name d) d)
  | [argument] =>
    if argument = maxDepthOption then .error (.missingValue argument) else single argument d
  | argument :: next :: rest =>
    if argument = maxDepthOption then
      if next.startsWith "-" then .error (.missingValue argument)
      else do readArguments (← setDepth next d) rest
    else
      match single argument d with
      | .ok (.goOn d) => readArguments d (next :: rest)
      | other => other

/-- What the arguments of a command line ask for. -/
def Request.ofArguments (arguments : List String) : Parsed Request := do
  match ← readArguments {} arguments with
  | .help => return .help
  | .goOn d =>
    match d.file with
    | none => throw .missingFile
    | some file =>
      return .run {
        file
        checkOnly := d.checkOnly
        outline := d.outline
        maxDepth := d.maxDepth
        noMain := d.noMain
        verbosity := d.verbosity }

/-- How the command line is used. -/
def usage : String := String.intercalate "\n" [
  "Runs classroom pseudo-code, repairing and explaining syntax mistakes",
  "",
  "Usage: primer [OPTIONS] <FILE>",
  "",
  "Arguments:",
  "  <FILE>  The program file to run",
  "",
  "Options:",
  "      --check          Report diagnostics without running the program",
  "      --outline        Print classes, routines and globals with their lines",
  "      --max-depth <N>  Maximum routine call depth before the run is stopped",
  "      --no-main        Do not call Module main after the top-level statements",
  "  -v, --verbose...     Log engine activity to stderr",
  "  -h, --help           Print help"]

end Primer.CommandLine
