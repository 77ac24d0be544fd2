import BrokerPolicy.PolicyFile.Application
import BrokerPolicy.PolicyFile.Reader
import BrokerPolicy.PolicyFile.Validation

set_option autoImplicit false

namespace BrokerPolicy

/-- Why a file has no content, as the system says it. -/
structure FileFault where
  message : String
deriving DecidableEq

namespace FileFault

/-- A call of the system that failed is told by the system's text and its number. -/
def system (text : String) (code : Nat) : FileFault :=
  ⟨text ++ " (os error " ++ toString code ++ ")"⟩

def notUnicode : FileFault := ⟨"stream did not contain valid UTF-8"⟩

end FileFault

/-- A text that is not read as a file, with what it fails on. -/
structure TomlError where
  source : String
  cause : Schema.ReadError
deriving DecidableEq

inductive ConfigError where
  | io (fault : FileFault)
  | parse (e : TomlError)
  | validation (errors : List PolicyFile.ValidationError)
  | policy (e : PolicyError)
deriving DecidableEq

/-- The reader of TOML has its own words for a text that it does not read: they tell the place,
show the line and describe the problem. All other texts are the program's. -/
def ConfigError.message (wording : TomlError → String) : ConfigError → String
  | .io fault => "IO error: " ++ fault.message
  | .parse e => "Parse error: " ++ wording e
  | .validation errors =>
    "Validation failed: " ++ ", ".intercalate (errors.map PolicyFile.ValidationError.message)
  | .policy e => "Policy rejected: " ++ e.message

abbrev FileContent := Except FileFault String

def FileContent.ofBytes (bytes : ByteArray) : FileContent :=
  match String.fromUTF8? bytes with
  | some s => .ok s
  | none => .error .notUnicode

namespace PolicyFile

def parse (edition : Edition) (source : String) : Except ConfigError PolicyFile :=
  match ofToml source with
  | .error e => .error (.parse ⟨source, e⟩)
  | .ok f =>
    match f.validate edition with
    | [] => .ok f
    | errors => .error (.validation errors)

def load (edition : Edition) (path : String) (content : FileContent) :
    Except ConfigError PolicyFile × List Event :=
  match content with
  | .error fault => (.error (.io fault), [])
  | .ok source =>
    match parse edition source with
    | .error e => (.error e, [])
    | .ok f => (.ok f, [.log .debug Log.loaderTarget "Policy file loaded" [("path", .shown path)]])

def loadBuilder (edition : Edition) (host : Host) (path : String) (content : FileContent) :
    Except ConfigError Builder × List Event :=
  match load edition path content with
  | (.error e, events) => (.error e, events)
  | (.ok f, events) =>
    let applied := f.apply edition (Builder.ofHost host)
    match applied.error with
    | some e => (.error (.policy e), events ++ applied.events)
    | none => (.ok applied.builder, events ++ applied.events)

end PolicyFile

end BrokerPolicy
