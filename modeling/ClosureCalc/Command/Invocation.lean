/-
The command line.

* `FileCommand`: the four commands that work on a file.
* `Invocation`: what was asked for.
* `UsageFault`: why the arguments cannot be followed, a request for help or
  for the version included.
* `Invocation.ofArgs`: the invocation that arguments spell out.
-/
namespace ClosureCalc

/-- The commands that work on a file. -/
inductive FileCommand where
  | run | check | tokens | ast
deriving DecidableEq, Inhabited, Repr

namespace FileCommand

/-- The word for a command. -/
def word : FileCommand → String
  | run => "run"
  | check => "check"
  | tokens => "tokens"
  | ast => "ast"

/-- The command for a word. -/
def ofWord? (text : String) : Option FileCommand :=
  [run, check, tokens, ast].find? (·.word == text)

end FileCommand

/-- What was asked for. -/
inductive Invocation where
  | file (command : FileCommand) (path : String)
  | repl
deriving DecidableEq, Inhabited, Repr

/-- Why arguments cannot be followed. -/
inductive UsageFault where
  /-- There are none. -/
  | noArguments
  /-- Help was asked for. -/
  | help
  /-- The version was asked for. -/
  | version
  /-- The first word is no command. -/
  | unknownCommand
  /-- A command on a file without a file. -/
  | missingFile
  /-- A file name without characters. -/
  | emptyFile
  /-- An option that the command does not know, or a word too many. -/
  | unknownArgument
  /-- A value for an option that takes none. -/
  | surplusValue
deriving DecidableEq, Inhabited, Repr

/-- What an argument looks like by its dashes. -/
inductive ArgShape where
  /-- Two dashes alone: all that follows is taken literally. -/
  | escape
  /-- Two dashes and a name, perhaps with a value behind an equals sign. -/
  | long (name : String) (hasValue : Bool)
  /-- One dash and letters, of which the first decides. -/
  | short (letter : Char)
  /-- Anything else, a single dash included. -/
  | plain
deriving DecidableEq, Inhabited, Repr

/-- The shape of an argument. -/
def ArgShape.of (arg : String) : ArgShape :=
  match arg.toList with
  | ['-', '-'] => escape
  | '-' :: '-' :: rest =>
    long (String.ofList (rest.takeWhile (· != '='))) (rest.contains '=')
  | '-' :: letter :: _ => short letter
  | _ => plain

namespace Invocation

/-- Whether a word is a command of any kind. -/
def isCommand (arg : String) : Bool :=
  (FileCommand.ofWord? arg).isSome || arg == "repl" || arg == "help"

/-- What an option asks for, where `known` gives the options by name and by
letter. An option takes no value. -/
def optionFault (known : List (String × Char × UsageFault)) : ArgShape → Option UsageFault
  | .long name hasValue =>
    match known.find? (·.1 == name) with
    | some (_, _, fault) => some (if hasValue then .surplusValue else fault)
    | none => some .unknownArgument
  | .short letter =>
    match known.find? (·.2.1 == letter) with
    | some (_, _, fault) => some fault
    | none => some .unknownArgument
  | _ => none

/-- The option that every command knows. -/
def helpOption : String × Char × UsageFault := ("help", 'h', .help)

/-- The option that only stands in front of a command. -/
def versionOption : String × Char × UsageFault := ("version", 'V', .version)

/-- What comes of the words behind `help`: each must be a command inside the
one before, and only the program itself has commands. -/
def helpOn : List String → UsageFault
  | [] => .help
  | [arg] => if isCommand arg then .help else .unknownCommand
  | _ => .unknownCommand

/-- Reads the arguments of a command on a file. A file name that is empty is
refused once it is complete: at the end, or when help is asked for. -/
def fileArgs (literal : Bool) (path : Option String) : List String → Except UsageFault String
  | [] =>
    match path with
    | none => .error .missingFile
    | some path => if path.isEmpty then .error .emptyFile else .ok path
  | arg :: rest =>
    let shape := if literal then .plain else ArgShape.of arg
    match shape, optionFault [helpOption] shape with
    | .escape, _ => fileArgs true path rest
    | _, some .help => .error (if path = some "" then .emptyFile else .help)
    | _, some fault => .error fault
    | _, none =>
      match path with
      | none => fileArgs literal (some arg) rest
      | some _ => .error .unknownArgument

/-- Reads the arguments of a command without a file. -/
def noArgs (literal : Bool) : List String → Except UsageFault Unit
  | [] => .ok ()
  | arg :: rest =>
    let shape := if literal then .plain else ArgShape.of arg
    match shape, optionFault [helpOption] shape with
    | .escape, _ => noArgs true rest
    | _, some fault => .error fault
    | _, none => .error .unknownArgument

/-- The command spelled out by its word and what follows. -/
def ofCommand (word : String) (rest : List String) : Except UsageFault Invocation :=
  match FileCommand.ofWord? word with
  | some command => (fileArgs false none rest).map (.file command)
  | none =>
    if word = "repl" then (noArgs false rest).map fun _ => .repl
    else if word = "help" then .error (helpOn rest)
    else .error .unknownCommand

/-- The invocation that arguments spell out. Behind two dashes no command is
expected any more. -/
def ofArgs : List String → Except UsageFault Invocation
  | [] => .error .noArguments
  | arg :: rest =>
    match ArgShape.of arg with
    | .plain => ofCommand arg rest
    | .escape =>
      match rest with
      | [] => .error .noArguments
      | arg :: _ => .error (if isCommand arg then .unknownArgument else .unknownCommand)
    | shape =>
      .error ((optionFault [helpOption, versionOption] shape).getD .unknownArgument)

end Invocation

end ClosureCalc
