import BrokerPolicy.CommandLine.Run

set_option autoImplicit false

namespace BrokerPolicy

def fileText? (path : String) : IO (Option String) := do
  try
    let text ← IO.FS.readFile path
    let trimmed := text.trimAscii.toString
    return if trimmed = "" then none else some trimmed
  catch _ => return none

def kernelField? (name : String) : IO (Option String) := fileText? ("/proc/sys/kernel/" ++ name)

def processNumber : IO UInt32 := do
  let record := (← fileText? "/proc/self/stat").getD ""
  let digits := record.toList.takeWhile Char.isDigit
  return UInt32.ofNat (((String.ofList digits).toNat?).getD 0)

/-- The last part of a path, up to its last dot unless that comes first. -/
def stem (path : String) : String :=
  let name := (path.toList.reverse.takeWhile (· ≠ '/')).reverse
  let front := (name.reverse.dropWhile (· ≠ '.')).drop 1
  String.ofList (if front.isEmpty then name else front.reverse)

def detectHost : IO Host := do
  let task ← try pure (stem (toString (← IO.appPath))) catch _ => pure "unknown"
  return {
    task := task
    pid := ← processNumber
    os := (← kernelField? "ostype").getD "linux"
    osVersion := (← kernelField? "osrelease").getD "unknown"
    osPatch := (← kernelField? "version").getD "unknown" }

def fileFault : IO.Error → FileFault
  | .noFileOrDirectory _ code text | .permissionDenied _ code text
  | .inappropriateType _ code text | .invalidArgument _ code text
  | .resourceExhausted _ code text | .noSuchThing _ code text | .alreadyExists _ code text
  | .interrupted _ code text | .hardwareFault code text | .resourceBusy code text
  | .resourceVanished code text | .unsupportedOperation code text | .illegalOperation code text
  | .protocolError code text | .timeExpired code text | .unsatisfiedConstraints code text
  | .otherError code text => .system text code.toNat
  | e => ⟨e.toString⟩

def readContent (path : String) : IO FileContent := do
  try
    return FileContent.ofBytes (← IO.FS.readBinFile path)
  catch e => return .error (fileFault e)

/-- The words of the reader in this program. It keeps no places, so it tells the problem only. -/
def wording (e : TomlError) : String :=
  match e.cause with
  | .syntaxFault => "the text is not well formed"
  | .schema p => p.message Schema.tomlFormat

def helpText : String :=
  "Inspect and validate AMQP context policies\n\n" ++
    "Usage: context-policy [OPTIONS] <COMMAND>\n\n" ++
    "Commands:\n" ++
    "  defaults  Print the default policy\n" ++
    "  keys      List reserved and defaulted client property keys\n" ++
    "  check     Validate a policy file and print the resulting policy\n" ++
    "  help      Print this message or the help of the given subcommand(s)\n\n" ++
    "Options:\n" ++
    "  -l, --log-level <LOG_LEVEL>  Log level. RUST_LOG takes precedence; falls back to the " ++
    "policy file\n" ++
    "  -h, --help                   Print help"

def runInvocation (i : CommandLine.Invocation) : IO UInt32 := do
  let content ←
    match i.command with
    | .check path => readContent path
    | _ => pure (.ok "")
  let outcome := i.run {
    edition := .standard
    host := ← detectHost
    logSetting := ← IO.getEnv "RUST_LOG"
    content := content
    wording := wording }
  for notice in outcome.notices do
    IO.eprintln notice.text
  IO.print outcome.output
  return UInt32.ofNat outcome.code

end BrokerPolicy

def main (args : List String) : IO UInt32 := do
  match BrokerPolicy.CommandLine.read args with
  | .ok i => BrokerPolicy.runInvocation i
  | .error .help => do
    IO.println BrokerPolicy.helpText
    return UInt32.ofNat BrokerPolicy.CommandLine.Stop.help.code
  | .error .usage => do
    IO.eprintln BrokerPolicy.helpText
    return UInt32.ofNat BrokerPolicy.CommandLine.Stop.usage.code
