import BrokerPolicy.CommandLine.Arguments
import BrokerPolicy.Log.Filter
import BrokerPolicy.Policy.Summary
import BrokerPolicy.PolicyFile.Loading

set_option autoImplicit false

/-!
Running a command. A run is a function of what it finds around it, and gives an exit code, the text
of its output, and the lines it has to say besides.
-/

namespace BrokerPolicy

def Host.detected (h : Host) : Event :=
  .log .debug Log.hostTarget "Host identity detected"
    [("task", .shown h.task), ("pid", .number h.pid.toNat), ("os", .shown h.os)]

namespace CommandLine

structure Surroundings where
  edition : Edition
  host : Host
  /-- The setting of the environment that decides what is logged, if there is one. -/
  logSetting : Option String
  content : FileContent
  /-- How the reader of TOML words an error. -/
  wording : TomlError → String

inductive Notice where
  | logged (r : Log.Record)
  | said (s : String)

def Notice.text : Notice → String
  | .logged r => r.line
  | .said s => s

structure Outcome where
  code : Nat
  output : String
  notices : List Notice

def shown (f : Log.Filter) : List Event → List Notice
  | [] => []
  | .logged r :: rest =>
    if f.passes r.target r.fieldNames r.level then .logged r :: shown f rest else shown f rest
  | _ :: rest => shown f rest

def failure (message : String) : Notice := .said ("Error: " ++ message)

/-- A run that worked on a policy with its log shown at a level. -/
def conclude (w : Surroundings) (level : String) (events : List Event)
    (result : Except PolicyError Policy) : Outcome :=
  let selection := Log.Selection.choose w.logSetting level
  let ignored := selection.ignored.map fun i => Notice.said (Log.ignoredText i.1 i.2)
  match result with
  | .ok p => ⟨0, p.summary.text ++ "\n", ignored ++ shown selection.filter events⟩
  | .error e =>
    let last : Event :=
      .log .error Log.commandTarget "Policy check failed" [("error", .shown e.message)]
    ⟨1, "", ignored ++ shown selection.filter (events ++ [last]) ++ [failure e.message]⟩

/-- No executor is lent on the command line. -/
def buildAlone (b : Builder) : Except PolicyError Policy × List Event := b.build fun _ => true

def runDefaults (w : Surroundings) (level : Option String) : Outcome :=
  let (result, events) := buildAlone (Builder.ofHost w.host)
  conclude w (level.getD PolicyFile.defaultLogLevel) (w.host.detected :: events) result

def padded (name : String) : String := name.pushn ' ' (12 - name.length)

def runKeys (w : Surroundings) : Outcome :=
  let lines :=
    ["reserved (set by the connection layer):"] ++
      Property.reservedNames.map (fun name => "  " ++ name) ++
      ["defaulted (overridable):"] ++
      w.host.properties.map fun e => "  " ++ padded e.1 ++ " " ++ e.2.display
  ⟨0, String.join (lines.map (· ++ "\n")), []⟩

/-- What is said about a file that cannot be used. Nothing is logged yet at this point. -/
def loadingNotices (wording : TomlError → String) (e : ConfigError) : List Notice :=
  let problems :=
    match e with
    | .validation errors => errors.map fun p => Notice.said ("  - " ++ p.message)
    | _ => []
  problems ++ [failure (e.message wording)]

def runCheck (w : Surroundings) (level : Option String) (path : String) : Outcome :=
  match (PolicyFile.load w.edition path w.content).1 with
  | .error e => ⟨1, "", loadingNotices w.wording e⟩
  | .ok f =>
    let checking : Event :=
      .log .info Log.commandTarget "Checking policy file" [("path", .shown path)]
    let applied := f.apply w.edition (Builder.ofHost w.host)
    let (result, built) :=
      match applied.error with
      | some e => (.error e, [])
      | none => buildAlone applied.builder
    conclude w (level.getD f.logLevel)
      ([checking, w.host.detected] ++ applied.events ++ built) result

def Invocation.run (i : Invocation) (w : Surroundings) : Outcome :=
  match i.command with
  | .defaults => runDefaults w i.logLevel
  | .keys => runKeys w
  | .check path => runCheck w i.logLevel path

end CommandLine

end BrokerPolicy
