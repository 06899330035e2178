/-
The program `primer`: it hands the arguments, the file and what is typed to the command
line and prints what that answers.
-/
import Primer.CommandLine

namespace Primer.Main

open CommandLine

/-- More steps than any run can take. -/
def plenty : Nat := 1000000000000000000

/-- What is found under a file name. -/
def readEntry (file : String) : IO FileEntry := do
  try
    return .bytes (← IO.FS.readBinFile file)
  catch
    | .noFileOrDirectory .. => return .missing
    | .inappropriateType _ code _ => return if code = 21 then .directory else .missing
    | e => return .unreadable (toString e)

/-- The next line typed, with its end; none for one that is not text. -/
def typedLine (input : IO.FS.Stream) : IO (Option String) := do
  try
    return some (← input.getLine)
  catch _ => return none

/-- Print lines, leaving out the first `printed`. -/
def printFrom (output : IO.FS.Stream) (printed : Nat) (lines : List String) : IO Unit := do
  for line in lines.drop printed do
    output.putStrLn line
  output.flush

/-- Run a program, with another line typed each time it waits for one. -/
partial def converse (options : Options) (entry : FileEntry) (console : Console) (printed : Nat) :
    IO Report := do
  let report := CommandLine.run options plenty entry console
  printFrom (← IO.getStdout) printed report.output
  if report.waiting then
    let line ← typedLine (← IO.getStdin)
    let next := if line = some "" then { console with ended := true }
      else { console with input := console.input ++ [line] }
    converse options entry next report.output.length
  else return report

/-- Print what is wrong with a program. -/
def printProblems (report : Report) : IO Unit := do
  for line in report.log do
    IO.eprintln line
  for diagnostic in report.diagnostics do
    IO.eprintln diagnostic.text
    if let some help := diagnostic.help then IO.eprintln s!"  help: {help}"
  for notice in report.notices do
    IO.eprintln notice

end Primer.Main

open Primer CommandLine Main in
def main (arguments : List String) : IO UInt32 := do
  let report ← match Request.ofArguments arguments with
    | .ok (.run options) =>
      converse options (← readEntry options.file) { ended := false } 0
    | _ =>
      let report := respond arguments plenty (fun _ => .missing) {}
      printFrom (← IO.getStdout) 0 report.output
      pure report
  printProblems report
  return report.exit.toUInt32
