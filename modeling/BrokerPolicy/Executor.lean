import BrokerPolicy.Duration
import BrokerPolicy.Text.Quoted

set_option autoImplicit false

namespace BrokerPolicy

structure PoolSettings where
  minThreads : Nat
  maxThreads : Nat
  maxIdle : Duration
deriving DecidableEq

def PoolSettings.standard : PoolSettings := ⟨1, 5, Duration.ofMillis 100⟩

inductive Executor where
  /-- One that runs jobs at once and can be told to stop accepting them. -/
  | named (name : String)
  /-- The worker threads of an asynchronous runtime, which accept every job. -/
  | runtime
deriving DecidableEq

inductive ExecutionResource where
  | pool (settings : PoolSettings)
  | borrowed (e : Executor)
deriving DecidableEq

inductive ExecutorError where
  | rejected (reason : String)
deriving DecidableEq

def ExecutorError.message : ExecutorError → String
  | .rejected reason => "job rejected by executor: " ++ reason

def Executor.name : Executor → String
  | .named name => name
  | .runtime => "runtime"

def Executor.refusal (e : Executor) : ExecutorError := .rejected (e.name ++ " shut down")

namespace ExecutionResource

def standard : ExecutionResource := .pool PoolSettings.standard

def isBorrowed : ExecutionResource → Bool
  | .pool _ => false
  | .borrowed _ => true

def executor? : ExecutionResource → Option Executor
  | .pool _ => none
  | .borrowed e => some e

def description : ExecutionResource → String
  | .pool s =>
    "default pool (min " ++ toString s.minThreads ++ ", max " ++ toString s.maxThreads ++
      ", idle " ++ toString s.maxIdle.wholeMillis ++ "ms)"
  | .borrowed _ => "caller-supplied executor"

def structural : ExecutionResource → String
  | .pool s =>
    Text.tagged "Default"
      (Text.recordText "ThreadPoolSettings"
        [("min_threads", toString s.minThreads),
         ("max_threads", toString s.maxThreads),
         ("max_idle", s.maxIdle.text)])
  | .borrowed _ => "Borrowed(..)"

end ExecutionResource

end BrokerPolicy
