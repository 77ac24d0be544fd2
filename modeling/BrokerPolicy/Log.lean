import BrokerPolicy.Text.Quoted

set_option autoImplicit false

/-!
Log records: a level, the part of the program they come from, a message and named fields.
-/

namespace BrokerPolicy.Log

inductive Level where
  | error
  | warn
  | info
  | debug
  | trace
deriving DecidableEq

namespace Level

def verbosity : Level → Nat
  | .error => 1
  | .warn => 2
  | .info => 3
  | .debug => 4
  | .trace => 5

def name : Level → String
  | .error => "ERROR"
  | .warn => "WARN"
  | .info => "INFO"
  | .debug => "DEBUG"
  | .trace => "TRACE"

def all : List Level := [.error, .warn, .info, .debug, .trace]

end Level

inductive Value where
  /-- Text of the caller, shown in quotes on a line. -/
  | text (s : String)
  | shown (s : String)
  | number (n : Nat)
  | flag (b : Bool)
deriving DecidableEq

abbrev Fields := List (String × Value)

structure Record where
  level : Level
  target : String
  message : String
  fields : Fields
deriving DecidableEq

def Value.line : Value → String
  | .text s => Text.structuralQuoted s
  | .shown s => s
  | .number n => toString n
  | .flag b => toString b

def Record.line (r : Record) : String :=
  r.level.name ++ " " ++ r.target ++ ": " ++
    " ".intercalate (r.message :: r.fields.map fun f => f.1 ++ "=" ++ f.2.line)

def builderTarget : String := "amqp_context_policy::policy::builder"

def hostTarget : String := "amqp_context_policy::properties::host"

def loaderTarget : String := "amqp_context_policy::config::loader"

def tracingTarget : String := "amqp_context_policy::observability::tracing"

def commandTarget : String := "context_policy"

end BrokerPolicy.Log
