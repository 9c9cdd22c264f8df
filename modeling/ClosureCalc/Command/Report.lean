/-
What the commands on a file print.

* `File`: what was found where the file should be; `File.text` reads it.
* `Report`: exit code and the texts for the two output streams.
* `FileCommand.output`: the text of a command on a source.
* `FileCommand.report`: the same for a file, with its failures. A report never
  mixes output with failure.
-/
import ClosureCalc.Command.Invocation
import ClosureCalc.Program.Outline
import ClosureCalc.Session
import ClosureCalc.Text.WhiteSpace

namespace ClosureCalc

/-- What was found where a file should be. -/
inductive File where
  | bytes (content : ByteArray)
  | directory
  | missing
  | unreadable (reason : String)
deriving Inhabited

/-- The text of a file. -/
def File.text : File → Except FileFault String
  | bytes content =>
    match String.fromUTF8? content with
    | some text => .ok text
    | none => .error .notText
  | directory => .error .isDirectory
  | missing => .error .missing
  | unreadable reason => .error (.other reason)

/-- What a command leaves behind. -/
structure Report where
  exit : Nat
  stdout : String
  stderr : String
deriving DecidableEq, Inhabited, Repr

namespace Report

/-- The exit code for an error in the source. -/
def dataError : Nat := 65

/-- The exit code for calls nested beyond the limit. -/
def softwareError : Nat := 70

/-- The exit code for a file that cannot be read. -/
def fileError : Nat := 74

/-- A success with its output. -/
def success (output : String) : Report := ⟨0, output, ""⟩

/-- The exit code for an error. -/
def exitCode : Error → Nat
  | .io _ => fileError
  | _ => dataError

/-- A run that ended early, shown against its source. -/
def ofStop (source : String) : Stop → Report
  | .error e => ⟨exitCode e, "", trimEnd (e.render source) ++ "\n"⟩
  | .depth => ⟨softwareError, "", "calls nested too deep\n"⟩

/-- A file that cannot be read. -/
def ofFileFault (path : String) (fault : FileFault) : Report :=
  ⟨exitCode (.io fault), "", path ++ ": " ++ (Error.io fault).message ++ "\n"⟩

end Report

/-- A line of a listing of tokens: the place, the payload and the kind. -/
def Token.row (t : Token) : String :=
  "| " ++ t.pos.label ++ " | " ++ flushRight 30 (t.kind.payload.getD "") ++ " | " ++
    flushRight 10 t.kind.name
where
  flushRight (width : Nat) (text : String) : String :=
    String.ofList (text.toList.leftpad width ' ')

namespace FileCommand

/-- Lines with their ends. -/
def unlines (lines : List String) : String := String.join (lines.map (· ++ "\n"))

/-- An error of the reading phases as the end of a run. -/
def orStop {α : Type} (r : Except Error α) : Except Stop α := r.mapError .error

/-- The value that a source ends with in a standard scope. -/
def runSource (limit : Nat) (g : Generator) (source : String) : Except Stop (Option Value) :=
  ((Session.standard g).step releaseOnExit limit source).1.map (·.value)

/-- The output of a command on a source. -/
def output (c : FileCommand) (limit : Nat) (g : Generator) (source : String) :
    Except Stop String :=
  match c with
  | run => do
    let value ← runSource limit g source
    return unlines (value.toList.map Value.text)
  | check => do
    let p ← orStop (parse source)
    return "ok: " ++ p.body.length.repr ++ " top-level statements\n"
  | tokens => do
    let ts ← orStop (tokenize source)
    return unlines (ts.map Token.row)
  | ast => do
    let p ← orStop (parse source)
    return p.outline.text ++ "\n"

/-- What a command on a file leaves behind. -/
def report (c : FileCommand) (limit : Nat) (g : Generator) (path : String) (file : File) :
    Report :=
  match file.text with
  | .error fault => .ofFileFault path fault
  | .ok source =>
    match c.output limit g source with
    | .ok text => .success text
    | .error stop => .ofStop source stop

end FileCommand

end ClosureCalc
