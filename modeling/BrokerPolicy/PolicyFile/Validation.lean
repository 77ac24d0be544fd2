import BrokerPolicy.Policy.Builder
import BrokerPolicy.PolicyFile.Basic
import BrokerPolicy.Text.Characters

set_option autoImplicit false

/-!
Checks of a file's content beyond its schema. Every problem is reported, in a fixed order:
durations, property names in ascending order, tunables as they come, and the log level.
-/

namespace BrokerPolicy.PolicyFile

inductive ValidationError where
  | property (e : PolicyError)
  | tunablesDisabled (name : String)
  | emptyTunable
  | logLevel (level : String)
  | durationOutOfRange (field : Field) (seconds : UInt64)
deriving DecidableEq

def maxSeconds : Nat := (UInt64.size - 1) / 1000

def ValidationError.message : ValidationError → String
  | .property e => "client_properties: " ++ e.message
  | .tunablesDisabled name => "tunable `" ++ name ++ "` requires the `experimental` feature"
  | .emptyTunable => "tunable names must not be empty"
  | .logLevel level => "unknown log level `" ++ level ++ "`"
  | .durationOutOfRange field seconds =>
    field.name ++ " = " ++ toString seconds.toNat ++ " is too large; at most " ++
      toString maxSeconds ++ " seconds"

def logLevels : List String := ["trace", "debug", "info", "warn", "error"]

def durationErrors (field : Field) (seconds : Option UInt64) : List ValidationError :=
  match seconds with
  | some s => if maxSeconds < s.toNat then [.durationOutOfRange field s] else []
  | none => []

def nameErrors (name : String) : List ValidationError :=
  match Property.checkName name with
  | .error e => [.property e]
  | .ok _ => []

def tunableErrors (edition : Edition) (name : String) : List ValidationError :=
  if name = "" then [.emptyTunable]
  else if edition = .standard then [.tunablesDisabled name]
  else []

def logLevelErrors (level : String) : List ValidationError :=
  if Text.lowerAscii level ∈ logLevels then [] else [.logLevel level]

def validate (edition : Edition) (f : PolicyFile) : List ValidationError :=
  durationErrors .timeout f.timeoutSeconds ++
    durationErrors .threshold f.thresholdSeconds ++
    (OrderedTable.names f.properties).flatMap nameErrors ++
    f.tunables.flatMap (tunableErrors edition) ++
    logLevelErrors f.logLevel

end BrokerPolicy.PolicyFile
