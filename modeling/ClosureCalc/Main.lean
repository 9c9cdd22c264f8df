/-
The program.

Everything that is decided is decided by pure functions; here files are read
and texts are written.
-/
import ClosureCalc.Command.Report
import ClosureCalc.Editor.Completeness
import ClosureCalc.Editor.Prompt

namespace ClosureCalc

/-- What is found at a path. -/
def File.find (path : String) : IO File := do
  try
    return .bytes (← IO.FS.readBinFile path)
  catch
    | .noFileOrDirectory .. => return .missing
    | .inappropriateType .. => return .directory
    | e => return .unreadable (toString e)

/-- A generator with a seed from the system. -/
def Generator.ofSystem : IO Generator := do
  let bytes ← IO.getRandomBytes 8
  return ⟨bytes.foldl (fun n b => 256 * n + b.toUInt64) 0⟩

/-- Writes a report and gives its exit code. -/
def Report.emit (r : Report) : IO UInt32 := do
  IO.print r.stdout
  IO.eprint r.stderr
  return r.exit.toUInt32

/-- What is shown of an evaluation: its value, else the names it declared. -/
def Evaluation.lines (e : Evaluation) : List String :=
  match e.value, e.declared with
  | some v, _ => [v.text]
  | none, [] => []
  | none, names => ["declared: " ++ ", ".intercalate names]

/-- Reads units from the input and answers them, up to its end. Lines are
collected until they are complete. -/
partial def converse (input : IO.FS.Stream) (typed : String) (s : Session) : IO UInt32 := do
  let prompt := Prompt.standard
  IO.print (if typed.isEmpty then prompt.left ++ prompt.indicator else prompt.continuation)
  (← IO.getStdout).flush
  let line ← input.getLine
  if line.isEmpty then return 0
  let source := typed ++ line
  if isComplete source then
    let (answer, s) := s.step releaseOnExit defaultLimit source
    match answer with
    | .ok e => e.lines.forM IO.println
    | .error stop => IO.eprint (Report.ofStop source stop).stderr
    converse input "" s
  else converse input source s

/-- How the program is called. -/
def usage : String :=
  "usage: COMMAND\n\n" ++
    "  run FILE     run a source file and print its result\n" ++
    "  check FILE   check a source file for errors of form\n" ++
    "  tokens FILE  print the tokens of a source file\n" ++
    "  ast FILE     print the tree of a source file\n" ++
    "  repl         read and answer input line by line\n"

end ClosureCalc

open ClosureCalc in
/-- Carries out the command that the arguments spell out. -/
def main (args : List String) : IO UInt32 := do
  let g ← Generator.ofSystem
  match Invocation.ofArgs args with
  | .ok (.file command path) =>
    (command.report defaultLimit g path (← File.find path)).emit
  | .ok .repl => converse (← IO.getStdin) "" (Session.standard g)
  | .error .help =>
    IO.print usage
    return 0
  | .error .version =>
    IO.println "0.1.0"
    return 0
  | .error _ =>
    IO.eprint usage
    return 2
