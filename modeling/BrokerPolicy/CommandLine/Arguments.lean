set_option autoImplicit false

/-!
The arguments of the command: a log level in front, then one of three commands, of which `check`
takes the path of a file. Arguments are read from left to right, and the first one that asks for
help or does not fit ends the reading.
-/

namespace BrokerPolicy.CommandLine

inductive Command where
  | defaults
  | keys
  | check (path : String)
deriving DecidableEq

structure Invocation where
  logLevel : Option String
  command : Command
deriving DecidableEq

inductive Stop where
  | help
  | usage
deriving DecidableEq

def Stop.code : Stop → Nat
  | .help => 0
  | .usage => 2

def after? (beginning s : String) : Option String :=
  if beginning.toList.isPrefixOf s.toList then
    some (String.ofList (s.toList.drop beginning.length))
  else none

/-- A lone dash is an operand. -/
def isOption (arg : String) : Bool := arg ≠ "-" && (after? "-" arg).isSome

/-- The long option, or a group of short ones that begins with it. -/
def asksHelp (arg : String) : Bool := arg = "--help" || (after? "-h" arg).isSome

def attachedLevel? (arg : String) : Option String :=
  match after? "--log-level=" arg with
  | some level => some level
  | none =>
    match after? "-l" arg with
    | some level => some ((after? "=" level).getD level)
    | none => none

def commandNames : List String := ["defaults", "keys", "check", "help"]

/-- The names after `help` have to be those of one command at most. -/
def readHelp : List String → Stop
  | [] => .help
  | [name] => if name ∈ commandNames then .help else .usage
  | _ => .usage

def readNothing (c : Command) : List String → Except Stop Command
  | [] => .ok c
  | "--" :: rest => if rest.isEmpty then .ok c else .error .usage
  | arg :: _ => if asksHelp arg then .error .help else .error .usage

/-- One path that is not empty, before or after the mark that ends the options. -/
def readPath (path : Option String) (optionsEnded : Bool) : List String → Except Stop Command
  | [] =>
    match path with
    | some p => .ok (.check p)
    | none => .error .usage
  | arg :: rest =>
    if !optionsEnded && arg = "--" then readPath path true rest
    else if !optionsEnded && asksHelp arg then .error .help
    else if !optionsEnded && isOption arg then .error .usage
    else if path.isSome || arg = "" then .error .usage
    else readPath (some arg) optionsEnded rest

def readCommand : List String → Except Stop Command
  | "defaults" :: rest => readNothing .defaults rest
  | "keys" :: rest => readNothing .keys rest
  | "check" :: rest => readPath none false rest
  | "help" :: rest => .error (readHelp rest)
  | arg :: _ => if asksHelp arg then .error .help else .error .usage
  | [] => .error .usage

/-- A level in the argument after its option; it cannot look like an option. -/
def detachedLevel? : List String → Option (String × List String)
  | arg :: level :: rest =>
    if (arg = "-l" ∨ arg = "--log-level") ∧ !isOption level then some (level, rest) else none
  | _ => none

/-- The end of a reading in which the level was given twice. The second one, when it stands in an
argument of its own, is found fault with only after the command, so help that is asked of the
command comes first. -/
def readRepeated (args : List String) : Stop :=
  match detachedLevel? args with
  | none => .usage
  | some (_, rest) =>
    if rest.head?.any (· ∈ commandNames) then
      match readCommand rest with
      | .error .help => .help
      | _ => .usage
    else .usage

def asksLevel (arg : String) : Bool :=
  arg = "-l" || arg = "--log-level" || (attachedLevel? arg).isSome

def readWithLevel (level : String) (rest : List String) : Except Stop Invocation :=
  if rest.head?.any asksLevel then .error (readRepeated rest)
  else (readCommand rest).map fun c => ⟨some level, c⟩

def read (args : List String) : Except Stop Invocation :=
  match args with
  | [] => .error .usage
  | arg :: rest =>
    match detachedLevel? args with
    | some (level, rest) => readWithLevel level rest
    | none =>
      if arg = "-l" ∨ arg = "--log-level" then .error .usage
      else
        match attachedLevel? arg with
        | some level => readWithLevel level rest
        | none => (readCommand args).map fun c => ⟨none, c⟩

end BrokerPolicy.CommandLine
